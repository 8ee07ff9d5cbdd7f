/-
This file holds the container that every named collection of the library uses: entries in
the order in which their names first appeared, one entry per name.

The plain lists come first. A name is looked up by its first entry, and `Entries.put` gives a
name a value: a name that is present keeps its place, a new name goes to the end. A
`Dictionary` is such a list together with the fact that no name occurs twice, and `insert` is
`put` on it. Two dictionaries agree when each entry of one takes an equal entry of its name
from the other and none remains, so the order of the entries does not matter there.
-/

namespace DocQuery

/-! ### Lists of named entries -/

namespace Entries

variable {Item : Type}

/-- The names of the entries, in order. -/
def names (entries : List (String × Item)) : List String :=
  entries.map Prod.fst

/-- The value of the first entry with this name. -/
def find? (name : String) : List (String × Item) → Option Item
  | [] => none
  | (key, item) :: rest => if key = name then some item else find? name rest

/-- Gives the name a value: in its place if the name is present, else at the end. -/
def put (name : String) (item : Item) : List (String × Item) → List (String × Item)
  | [] => [(name, item)]
  | (key, old) :: rest =>
    if key = name then (key, item) :: rest else (key, old) :: put name item rest

/-- The first entry with this name together with the entries that remain without it. -/
def take? (name : String) : List (String × Item) → Option (Item × List (String × Item))
  | [] => none
  | (key, item) :: rest =>
    if key = name then some (item, rest)
    else (take? name rest).map fun taken => (taken.1, (key, item) :: taken.2)

/-- Each entry on the left takes an equal entry of its name from the right, and none remains. -/
def agree (equal : Item → Item → Bool) : List (String × Item) → List (String × Item) → Bool
  | [], right => right.isEmpty
  | (key, item) :: rest, right =>
    match take? key right with
    | none => false
    | some (other, remaining) => equal item other && agree equal rest remaining

/-- Puts the entries one after the other. -/
def putAll (entries : List (String × Item)) : List (String × Item) :=
  entries.foldl (fun built entry => put entry.1 entry.2 built) []

@[simp] theorem names_nil : names ([] : List (String × Item)) = [] := rfl

@[simp] theorem names_cons (entry : String × Item) (rest : List (String × Item)) :
    names (entry :: rest) = entry.1 :: names rest := rfl

@[simp] theorem names_append (left right : List (String × Item)) :
    names (left ++ right) = names left ++ names right := by
  simp [names]

theorem find?_eq_none_iff (name : String) (entries : List (String × Item)) :
    find? name entries = none ↔ name ∉ names entries := by
  induction entries with
  | nil => simp [find?]
  | cons entry rest inductionHypothesis =>
    by_cases same : entry.1 = name
    · simp [find?, same]
    · simp [find?, same, inductionHypothesis, Ne.symm same]

theorem find?_isSome_iff (name : String) (entries : List (String × Item)) :
    (find? name entries).isSome ↔ name ∈ names entries := by
  rw [← Decidable.not_iff_not, ← find?_eq_none_iff, Option.not_isSome_iff_eq_none]

theorem mem_of_find? {name : String} {item : Item} {entries : List (String × Item)}
    (found : find? name entries = some item) : (name, item) ∈ entries := by
  induction entries with
  | nil => simp [find?] at found
  | cons entry rest inductionHypothesis =>
    by_cases same : entry.1 = name
    · simp [find?, same] at found
      simp [← same, ← found]
    · simp [find?, same] at found
      exact List.mem_cons_of_mem _ (inductionHypothesis found)

/-- Where names do not repeat, an entry is found under its name. -/
theorem find?_of_mem {name : String} {item : Item} {entries : List (String × Item)}
    (distinct : (names entries).Nodup) (member : (name, item) ∈ entries) :
    find? name entries = some item := by
  induction entries with
  | nil => simp at member
  | cons entry rest inductionHypothesis =>
    simp only [names_cons, List.nodup_cons] at distinct
    rcases List.mem_cons.mp member with rfl | later
    · simp [find?]
    · have different : entry.1 ≠ name := by
        rintro rfl
        exact distinct.1 (List.mem_map.mpr ⟨_, later, rfl⟩)
      simp [find?, different, inductionHypothesis distinct.2 later]

/-- Putting a present name moves nothing, and a new name goes to the end. -/
theorem names_put (name : String) (item : Item) (entries : List (String × Item)) :
    names (put name item entries) =
      if name ∈ names entries then names entries else names entries ++ [name] := by
  induction entries with
  | nil => simp [put, names]
  | cons entry rest inductionHypothesis =>
    by_cases same : entry.1 = name
    · simp [put, same]
    · simp only [put, same, if_false, names_cons, inductionHypothesis, List.mem_cons,
        Ne.symm same, false_or]
      split <;> rfl

/-- A name that was not there is put at the end. -/
theorem put_of_not_mem {name : String} {entries : List (String × Item)} (item : Item)
    (fresh : name ∉ names entries) : put name item entries = entries ++ [(name, item)] := by
  induction entries with
  | nil => rfl
  | cons entry rest inductionHypothesis =>
    simp only [names_cons, List.mem_cons, not_or] at fresh
    simp [put, Ne.symm fresh.1, inductionHypothesis fresh.2]

theorem find?_put_self (name : String) (item : Item) (entries : List (String × Item)) :
    find? name (put name item entries) = some item := by
  induction entries with
  | nil => simp [put, find?]
  | cons entry rest inductionHypothesis =>
    by_cases same : entry.1 = name
    · simp [put, find?, same]
    · simp [put, find?, same, inductionHypothesis]

theorem find?_put_other {name other : String} (item : Item) (entries : List (String × Item))
    (different : other ≠ name) : find? other (put name item entries) = find? other entries := by
  induction entries with
  | nil => simp [put, find?, Ne.symm different]
  | cons entry rest inductionHypothesis =>
    by_cases same : entry.1 = name
    · simp [put, find?, same, Ne.symm different]
    · simp [put, find?, same, inductionHypothesis]

/-- An entry of a list that was put into is the one put there or one from before. -/
theorem mem_put {name : String} {item : Item}
    {entries : List (String × Item)} {entry : String × Item}
    (member : entry ∈ put name item entries) : entry = (name, item) ∨ entry ∈ entries := by
  induction entries with
  | nil => exact .inl (List.mem_singleton.mp member)
  | cons first rest inductionHypothesis =>
    rw [put] at member
    split at member
    next same =>
      rcases List.mem_cons.mp member with rfl | later
      · exact .inl (by rw [same])
      · exact .inr (List.mem_cons_of_mem _ later)
    next =>
      rcases List.mem_cons.mp member with rfl | later
      · exact .inr List.mem_cons_self
      · exact (inductionHypothesis later).imp id (List.mem_cons_of_mem _)

theorem nodup_names_put (name : String) (item : Item) {entries : List (String × Item)}
    (distinct : (names entries).Nodup) : (names (put name item entries)).Nodup := by
  rw [names_put]
  split
  · exact distinct
  · rename_i fresh
    rw [List.nodup_append]
    refine ⟨distinct, by simp, ?_⟩
    rintro first member second single rfl
    exact fresh (List.mem_singleton.mp single ▸ member)

end Entries

/-! ### Dictionaries -/

/-- Values by name, in the order in which the names were first given. -/
@[ext] structure Dictionary (Item : Type) where
  /-- The entries, in order. -/
  entries : List (String × Item)
  /-- No name occurs twice. -/
  distinct : (Entries.names entries).Nodup

namespace Dictionary

variable {Item : Type}

/-- The dictionary without entries. -/
def empty : Dictionary Item := ⟨[], List.nodup_nil⟩

instance : EmptyCollection (Dictionary Item) := ⟨empty⟩

instance : Inhabited (Dictionary Item) := ⟨empty⟩

/-- Gives the name a value: in its place if the name is present, else at the end. -/
def insert (dictionary : Dictionary Item) (name : String) (item : Item) : Dictionary Item :=
  ⟨Entries.put name item dictionary.entries,
    Entries.nodup_names_put name item dictionary.distinct⟩

/-- The value under this name. -/
def find? (dictionary : Dictionary Item) (name : String) : Option Item :=
  Entries.find? name dictionary.entries

/-- The names, in order. -/
def names (dictionary : Dictionary Item) : List String :=
  Entries.names dictionary.entries

/-- The values, in the order of their names. -/
def items (dictionary : Dictionary Item) : List Item :=
  dictionary.entries.map Prod.snd

/-- Whether the name has a value. -/
def contains (dictionary : Dictionary Item) (name : String) : Bool :=
  (dictionary.find? name).isSome

/-- The number of entries. -/
def size (dictionary : Dictionary Item) : Nat :=
  dictionary.entries.length

/-- Whether there is no entry. -/
def isEmpty (dictionary : Dictionary Item) : Bool :=
  dictionary.entries.isEmpty

/-- Inserts the entries one after the other, so a repeated name keeps its last value. -/
def insertAll (dictionary : Dictionary Item) (entries : List (String × Item)) :
    Dictionary Item :=
  entries.foldl (fun built entry => built.insert entry.1 entry.2) dictionary

/-- The dictionary of a list: a repeated name keeps its first place and its last value. -/
def ofList (entries : List (String × Item)) : Dictionary Item :=
  empty.insertAll entries

/-- Whether both hold equal values under the same names, in whatever order. -/
def agree (equal : Item → Item → Bool) (left right : Dictionary Item) : Bool :=
  Entries.agree equal left.entries right.entries

@[simp] theorem names_insert (dictionary : Dictionary Item) (name : String) (item : Item) :
    (dictionary.insert name item).names =
      if name ∈ dictionary.names then dictionary.names else dictionary.names ++ [name] :=
  Entries.names_put name item dictionary.entries

@[simp] theorem find?_insert_self (dictionary : Dictionary Item) (name : String) (item : Item) :
    (dictionary.insert name item).find? name = some item :=
  Entries.find?_put_self name item dictionary.entries

theorem find?_insert_other (dictionary : Dictionary Item) {name other : String} (item : Item)
    (different : other ≠ name) :
    (dictionary.insert name item).find? other = dictionary.find? other :=
  Entries.find?_put_other item dictionary.entries different

theorem contains_iff (dictionary : Dictionary Item) (name : String) :
    dictionary.contains name = true ↔ name ∈ dictionary.names :=
  Entries.find?_isSome_iff name dictionary.entries

/-! ### Entries one after the other -/

theorem insertAll_cons (dictionary : Dictionary Item) (entry : String × Item)
    (rest : List (String × Item)) :
    dictionary.insertAll (entry :: rest) =
      (dictionary.insert entry.1 entry.2).insertAll rest := rfl

/-- Names that are not inserted keep their values. -/
theorem find?_insertAll_other (dictionary : Dictionary Item) {entries : List (String × Item)}
    {name : String} (other : name ∉ Entries.names entries) :
    (dictionary.insertAll entries).find? name = dictionary.find? name := by
  induction entries generalizing dictionary with
  | nil => rfl
  | cons entry rest inductionHypothesis =>
    rw [Entries.names_cons, List.mem_cons, not_or] at other
    rw [insertAll_cons, inductionHypothesis _ other.2, find?_insert_other _ _ other.1]

/-- Where the inserted names do not repeat, each gets its value. -/
theorem find?_insertAll_of_mem (dictionary : Dictionary Item) {entries : List (String × Item)}
    (distinct : (Entries.names entries).Nodup) {entry : String × Item} (member : entry ∈ entries) :
    (dictionary.insertAll entries).find? entry.1 = some entry.2 := by
  induction entries generalizing dictionary with
  | nil => cases member
  | cons first rest inductionHypothesis =>
    rw [Entries.names_cons, List.nodup_cons] at distinct
    rw [insertAll_cons]
    rcases List.mem_cons.mp member with rfl | later
    · rw [find?_insertAll_other _ distinct.1, find?_insert_self]
    · exact inductionHypothesis _ distinct.2 later

/-- Names that are there keep their places, and the new ones come behind them in order. -/
theorem names_insertAll (dictionary : Dictionary Item) {entries : List (String × Item)}
    (distinct : (Entries.names entries).Nodup) :
    (dictionary.insertAll entries).names =
      dictionary.names ++
        (Entries.names entries).filter fun name => decide (name ∉ dictionary.names) := by
  induction entries generalizing dictionary with
  | nil => exact (List.append_nil _).symm
  | cons entry rest inductionHypothesis =>
    rw [Entries.names_cons, List.nodup_cons] at distinct
    rw [insertAll_cons, inductionHypothesis _ distinct.2, names_insert, Entries.names_cons]
    by_cases present : entry.1 ∈ dictionary.names
    · rw [if_pos present, List.filter_cons_of_neg (by simpa using present)]
    · -- The names behind the first are other ones, so it does not matter that it is bound now.
      have rest_eq : (Entries.names rest).filter
            (fun name => decide (name ∉ dictionary.names ++ [entry.1])) =
          (Entries.names rest).filter fun name => decide (name ∉ dictionary.names) := by
        refine List.filter_congr fun name member => ?_
        have different : name ≠ entry.1 := by
          rintro rfl
          exact distinct.1 member
        simp [different]
      rw [if_neg present, rest_eq, List.filter_cons_of_pos (by simpa using present),
        List.append_assoc, List.singleton_append]

/-- Entries whose names are new and do not repeat are all put at the end. -/
theorem entries_insertAll (dictionary : Dictionary Item) {entries : List (String × Item)}
    (distinct : (Entries.names entries).Nodup)
    (fresh : ∀ name ∈ Entries.names entries, name ∉ dictionary.names) :
    (dictionary.insertAll entries).entries = dictionary.entries ++ entries := by
  induction entries generalizing dictionary with
  | nil => exact (List.append_nil _).symm
  | cons entry rest inductionHypothesis =>
    rw [Entries.names_cons, List.nodup_cons] at distinct
    rw [Entries.names_cons, List.forall_mem_cons] at fresh
    have first : (dictionary.insert entry.1 entry.2).entries = dictionary.entries ++ [entry] :=
      Entries.put_of_not_mem entry.2 fresh.1
    have later : ∀ name ∈ Entries.names rest,
        name ∉ (dictionary.insert entry.1 entry.2).names := by
      intro name member
      rw [names, first, Entries.names_append, List.mem_append, not_or]
      refine ⟨fresh.2 name member, fun same => distinct.1 ?_⟩
      rw [Entries.names_cons, Entries.names_nil, List.mem_singleton] at same
      exact same ▸ member
    rw [insertAll_cons, inductionHypothesis _ distinct.2 later, first, List.append_assoc,
      List.singleton_append]

/-- A dictionary is that of its entries. -/
theorem ofList_entries (dictionary : Dictionary Item) : ofList dictionary.entries = dictionary :=
  Dictionary.ext (entries_insertAll empty dictionary.distinct fun _ _ => List.not_mem_nil)

end Dictionary

end DocQuery

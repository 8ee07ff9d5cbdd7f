/-
This file proves what it means that two lists of named entries agree.

Entries of one list are matched one after the other with entries of the other list, and each takes
the first one of its name that is left. Which order the entries of different names are taken in
makes no difference to what is left. So a match can be read from the other side, and two matches
with one list in the middle can be joined. Where no name occurs twice, to agree is to give equal
items to the same names, which is to be as many and to find an equal item under each name, and the
order of the entries is not seen at all.
-/

import DocQuery.Dictionary

namespace DocQuery.Entries

/-! ### Taking an entry by its name -/

/-- The item of the first entry of this name, and the entries that remain without it. -/
inductive Taken {Item : Type} (name : String) (item : Item) :
    List (String × Item) → List (String × Item) → Prop
  | here {rest : List (String × Item)} : Taken name item ((name, item) :: rest) rest
  | behind {first : String × Item} {rest remaining : List (String × Item)}
    (different : first.1 ≠ name) (taken : Taken name item rest remaining) :
    Taken name item (first :: rest) (first :: remaining)

variable {Item : Type} {name other : String} {item found : Item}
variable {entries rest : List (String × Item)}

theorem take?_eq_some_iff :
    take? name entries = some (item, rest) ↔ Taken name item entries rest := by
  induction entries generalizing rest with
  | nil => exact iff_of_false nofun nofun
  | cons first behind inductionHypothesis =>
    obtain ⟨key, old⟩ := first
    rw [take?]
    by_cases same : key = name
    · subst same
      rw [if_pos rfl, Option.some_inj, Prod.mk.injEq]
      constructor
      · rintro ⟨rfl, rfl⟩
        exact .here
      · rintro (_ | ⟨different, _⟩)
        · exact ⟨rfl, rfl⟩
        · exact absurd rfl different
    · rw [if_neg same, Option.map_eq_some_iff]
      constructor
      · rintro ⟨⟨taken, remaining⟩, later, parts⟩
        cases parts
        exact .behind same (inductionHypothesis.mp later)
      · rintro (_ | ⟨_, later⟩)
        · exact absurd rfl same
        · exact ⟨_, inductionHypothesis.mpr later, rfl⟩

namespace Taken

theorem perm (taken : Taken name item entries rest) : entries.Perm ((name, item) :: rest) := by
  induction taken with
  | here => exact .refl _
  | behind _ _ inductionHypothesis => exact (inductionHypothesis.cons _).trans (.swap _ _ _)

theorem find?_self (taken : Taken name item entries rest) : find? name entries = some item := by
  induction taken with
  | here => exact if_pos rfl
  | behind different _ inductionHypothesis => exact (if_neg different).trans inductionHypothesis

theorem find?_other (taken : Taken name item entries rest) (different : other ≠ name) :
    find? other entries = find? other rest := by
  induction taken with
  | here => exact if_neg different.symm
  | behind _ _ inductionHypothesis => rw [find?, find?, inductionHypothesis]

theorem append (taken : Taken name item entries rest) (behind : List (String × Item)) :
    Taken name item (entries ++ behind) (rest ++ behind) := by
  induction taken with
  | here => exact .here
  | behind different _ inductionHypothesis => exact .behind different inductionHypothesis

/-- Of two names, the later one may as well be taken first. -/
theorem swap {later : List (String × Item)} (first : Taken name item entries rest)
    (second : Taken other found rest later) (different : other ≠ name) :
    ∃ between, Taken other found entries between ∧ Taken name item between later := by
  induction first generalizing later with
  | here => exact ⟨_, .behind different.symm second, .here⟩
  | behind apart _ inductionHypothesis =>
    cases second with
    | here => exact ⟨_, .here, ‹_›⟩
    | behind otherApart second =>
      obtain ⟨between, here, behind⟩ := inductionHypothesis second
      exact ⟨_, .behind otherApart here, .behind apart behind⟩

end Taken

/-- What is found under a name can be taken. -/
theorem exists_taken (present : find? name entries = some item) :
    ∃ rest, Taken name item entries rest := by
  induction entries with
  | nil => cases present
  | cons first behind inductionHypothesis =>
    obtain ⟨key, old⟩ := first
    rw [find?] at present
    split at present
    · rename_i same
      subst same
      cases present
      exact ⟨_, .here⟩
    · rename_i different
      obtain ⟨rest, taken⟩ := inductionHypothesis present
      exact ⟨_, .behind different taken⟩

/-! ### Matching entries with entries -/

variable {equal : Item → Item → Bool} {left right third : List (String × Item)}

theorem agree_nil_iff : agree equal [] right = true ↔ right = [] :=
  List.isEmpty_iff

theorem agree_cons_iff :
    agree equal ((name, item) :: left) right = true ↔
      ∃ found rest, Taken name found right rest ∧ equal item found = true ∧
        agree equal left rest = true := by
  rw [agree]
  simp only [← take?_eq_some_iff]
  cases take? name right with
  | none => exact iff_of_false nofun nofun
  | some taken =>
    obtain ⟨found, rest⟩ := taken
    constructor
    · exact fun both => ⟨found, rest, rfl, Bool.and_eq_true_iff.mp both⟩
    · rintro ⟨_, _, parts, both⟩
      cases parts
      exact Bool.and_eq_true_iff.mpr both

theorem agree_cons_self (entry : String × Item) (rest : List (String × Item)) :
    agree equal (entry :: rest) (entry :: rest) =
      (equal entry.2 entry.2 && agree equal rest rest) := by
  rw [agree, take?, if_pos rfl]

/-- Lists that agree still do so with lists behind them that agree. -/
theorem agree_append {leftBehind rightBehind : List (String × Item)}
    (front : agree equal left right = true) (behind : agree equal leftBehind rightBehind = true) :
    agree equal (left ++ leftBehind) (right ++ rightBehind) = true := by
  induction left generalizing right with
  | nil =>
    rw [agree_nil_iff.mp front]
    exact behind
  | cons entry rest inductionHypothesis =>
    obtain ⟨name, item⟩ := entry
    obtain ⟨found, others, taken, same, agrees⟩ := agree_cons_iff.mp front
    exact agree_cons_iff.mpr
      ⟨found, _, taken.append rightBehind, same, inductionHypothesis agrees⟩

/-- An entry that is equal to the taken one can stand in front of what agrees with the rest. -/
theorem Taken.agree_cons (taken : Taken name found entries rest) (same : equal found item = true)
    (agrees : agree equal rest right = true) :
    agree equal entries ((name, item) :: right) = true := by
  induction taken generalizing right with
  | here => exact agree_cons_iff.mpr ⟨item, right, .here, same, agrees⟩
  | behind different _ inductionHypothesis =>
    obtain ⟨other, others, taken, equals, agrees⟩ := agree_cons_iff.mp agrees
    exact agree_cons_iff.mpr
      ⟨other, _, .behind different.symm taken, equals, inductionHypothesis agrees⟩

/-- What is taken from one side has its like on the other, and what is left agrees as well. -/
theorem Taken.exists_agree (taken : Taken name item entries rest)
    (agrees : agree equal entries right = true) :
    ∃ found others, Taken name found right others ∧ equal item found = true ∧
      agree equal rest others = true := by
  induction taken generalizing right with
  | here => exact agree_cons_iff.mp agrees
  | behind different _ inductionHypothesis =>
    obtain ⟨other, others, first, equals, agrees⟩ := agree_cons_iff.mp agrees
    obtain ⟨found, remaining, second, same, agrees⟩ := inductionHypothesis agrees
    obtain ⟨between, here, behind⟩ := first.swap second different.symm
    exact ⟨found, between, here, same,
      agree_cons_iff.mpr ⟨other, remaining, behind, equals, agrees⟩⟩

/-! ### Lists without repeated names -/

theorem nodup_names_iff_of_perm (perm : left.Perm right) :
    (names left).Nodup ↔ (names right).Nodup :=
  (perm.map Prod.fst).nodup_iff

theorem exists_of_rel_some {Like : Item → Item → Prop} {other : Option Item}
    (alike : Option.Rel Like (some item) other) :
    ∃ found, other = some found ∧ Like item found := by
  cases alike with
  | some like => exact ⟨_, rfl, like⟩

/-- What agrees gives equal items to the same names. -/
theorem rel_find?_of_agree (distinct : (names left).Nodup) (agrees : agree equal left right = true)
    (name : String) :
    Option.Rel (fun item found => equal item found = true) (find? name left)
      (find? name right) := by
  induction left generalizing right with
  | nil =>
    rw [agree_nil_iff.mp agrees]
    exact .none
  | cons first rest inductionHypothesis =>
    obtain ⟨key, item⟩ := first
    obtain ⟨found, others, taken, same, agrees⟩ := agree_cons_iff.mp agrees
    rw [find?]
    split
    · rename_i here
      subst here
      rw [taken.find?_self]
      exact .some same
    · rename_i different
      rw [taken.find?_other (Ne.symm different)]
      exact inductionHypothesis (List.nodup_cons.mp distinct).2 agrees

/-- Lists that give equal items to the same names agree. -/
theorem agree_of_rel_find? (distinct : (names left).Nodup) (distinctRight : (names right).Nodup)
    (alike : ∀ name, Option.Rel (fun item found => equal item found = true) (find? name left)
      (find? name right)) : agree equal left right = true := by
  induction left generalizing right with
  | nil =>
    rw [agree_nil_iff]
    cases right with
    | nil => rfl
    | cons first rest =>
      have present := alike first.1
      rw [find?, find?, if_pos rfl] at present
      cases present
  | cons first rest inductionHypothesis =>
    obtain ⟨key, item⟩ := first
    obtain ⟨absent, distinct⟩ := List.nodup_cons.mp distinct
    have present := alike key
    rw [find?, if_pos rfl] at present
    obtain ⟨found, there, same⟩ := exists_of_rel_some present
    obtain ⟨others, taken⟩ := exists_taken there
    have distinctTaken : (names ((key, found) :: others)).Nodup :=
      (nodup_names_iff_of_perm taken.perm).mp distinctRight
    obtain ⟨absentOthers, distinctOthers⟩ := List.nodup_cons.mp distinctTaken
    refine agree_cons_iff.mpr ⟨found, others, taken, same,
      inductionHypothesis distinct distinctOthers fun name => ?_⟩
    by_cases here : name = key
    · rw [here, (find?_eq_none_iff key rest).mpr absent,
        (find?_eq_none_iff key others).mpr absentOthers]
      exact .none
    · have behind := alike name
      rw [find?, if_neg (Ne.symm here), taken.find?_other here] at behind
      exact behind

theorem length_eq_of_agree (agrees : agree equal left right = true) :
    left.length = right.length := by
  induction left generalizing right with
  | nil => rw [agree_nil_iff.mp agrees]
  | cons first rest inductionHypothesis =>
    obtain ⟨found, others, taken, -, agrees⟩ := agree_cons_iff.mp agrees
    rw [taken.perm.length_eq, List.length_cons, List.length_cons, inductionHypothesis agrees]

/-- Lists agree exactly if they are of the same length and every entry of the one finds an equal
item under its name in the other. -/
theorem agree_iff_lookups (distinct : (names left).Nodup) :
    agree equal left right = true ↔
      left.length = right.length ∧
        ∀ entry ∈ left, ∃ found, find? entry.1 right = some found ∧ equal entry.2 found = true := by
  constructor
  · intro agrees
    refine ⟨length_eq_of_agree agrees, fun entry member => ?_⟩
    have alike := rel_find?_of_agree distinct agrees entry.1
    rw [find?_of_mem distinct member] at alike
    exact exists_of_rel_some alike
  · rintro ⟨sizes, lookups⟩
    induction left generalizing right with
    | nil => exact agree_nil_iff.mpr (List.length_eq_zero_iff.mp sizes.symm)
    | cons first rest inductionHypothesis =>
      obtain ⟨absent, distinct⟩ := List.nodup_cons.mp distinct
      obtain ⟨⟨found, there, same⟩, later⟩ := List.forall_mem_cons.mp lookups
      obtain ⟨others, taken⟩ := exists_taken there
      rw [taken.perm.length_eq, List.length_cons, List.length_cons,
        Nat.add_right_cancel_iff] at sizes
      refine agree_cons_iff.mpr
        ⟨found, others, taken, same, inductionHypothesis distinct sizes fun entry member => ?_⟩
      -- The taken entry has another name, so it is not the one that was found for a later entry.
      have different : entry.1 ≠ first.1 := fun same => absent (same ▸ List.mem_map_of_mem member)
      rw [← taken.find?_other different]
      exact later entry member

/-- The entries of a list agree with themselves in any other order. -/
theorem agree_of_perm (distinct : (names left).Nodup) (perm : left.Perm right)
    (reflexive : ∀ entry ∈ left, equal entry.2 entry.2 = true) :
    agree equal left right = true := by
  have distinctRight : (names right).Nodup := (nodup_names_iff_of_perm perm).mp distinct
  refine (agree_iff_lookups distinct).mpr ⟨perm.length_eq, fun entry member => ?_⟩
  have present : entry ∈ right := perm.mem_iff.mp member
  exact ⟨entry.2, find?_of_mem distinctRight present, reflexive entry member⟩

end DocQuery.Entries

/-
This file proves what the equality of values ignores.

Equality is symmetric and transitive. A value is equal to itself exactly if no not-a-number is found
in it at any depth, as that alone differs from itself. The order of the entries of an object is not
seen, however deep the object is, and no other order is ignored: two values are equal exactly if
entries of the one can change places so that both are equal entry by entry.
-/

import DocQuery.Proofs.Agreement
import DocQuery.Proofs.LiteralReading
import Mathlib.Data.List.Perm.Basic

namespace DocQuery

namespace Value

/-! ### What equal values look like -/

/-- Whether a value holds no others and is equal to itself alone. Doubles are apart, since the two
zeros are equal and a not-a-number is equal to nothing. -/
def IsPlain : Value → Prop
  | .float _ => False
  | .list _ => False
  | .object _ => False
  | _ => True

theorem equal_plain_iff {left right : Value} (plain : left.IsPlain) :
    left.equal right = true ↔ left = right := by
  cases left with
  | float number => exact plain.elim
  | list items => exact plain.elim
  | object entries => exact plain.elim
  | _ => cases right <;> simp [equal]

theorem equal_float_iff {number : Double} {right : Value} :
    (Value.float number).equal right = true ↔
      ∃ other, right = .float other ∧ number.equal other = true := by
  cases right <;> simp [equal]

theorem equal_list_iff {items : List Value} {right : Value} :
    (Value.list items).equal right = true ↔
      ∃ others, right = .list others ∧ equalItems items others = true := by
  cases right <;> simp [equal]

theorem equal_object_iff {entries : List (String × Value)} {right : Value} :
    (Value.object entries).equal right = true ↔
      ∃ others, right = .object others ∧ Entries.agree equal entries others = true := by
  cases right <;> simp [equal, agreeEntries_eq]

/-- Objects are compared as maps are: by their sizes, and then by looking up each name. -/
theorem equal_objects_iff {left right : List (String × Value)}
    (distinct : (Entries.names left).Nodup) :
    (Value.object left).equal (.object right) = true ↔
      left.length = right.length ∧
        ∀ entry ∈ left, ∃ item, Entries.find? entry.1 right = some item ∧
          entry.2.equal item = true := by
  rw [equal, agreeEntries_eq, Entries.agree_iff_lookups distinct]

theorem equalItems_cons_iff {item : Value} {rest others : List Value} :
    equalItems (item :: rest) others = true ↔
      ∃ other behind, others = other :: behind ∧ item.equal other = true ∧
        equalItems rest behind = true := by
  cases others <;> simp [equalItems]

theorem equalItems_nil_iff {others : List Value} : equalItems [] others = true ↔ others = [] := by
  cases others <;> simp [equalItems]

theorem equalItems_iff {items others : List Value} :
    equalItems items others = true ↔
      List.Forall₂ (fun item other => item.equal other = true) items others := by
  induction items generalizing others with
  | nil => rw [equalItems_nil_iff, List.forall₂_nil_left_iff]
  | cons item rest inductionHypothesis =>
    cases others <;> simp [equalItems, inductionHypothesis]

/-! ### Symmetry and transitivity -/

mutual

theorem equal_symm (left right : Value) (same : left.equal right = true) :
    right.equal left = true := by
  cases left with
  | float number =>
    obtain ⟨other, rfl, same⟩ := equal_float_iff.mp same
    exact (Double.equal_comm other number).trans same
  | list items =>
    obtain ⟨others, rfl, same⟩ := equal_list_iff.mp same
    exact equalItems_symm items others same
  | object entries =>
    obtain ⟨others, rfl, agrees⟩ := equal_object_iff.mp same
    exact equal_object_iff.mpr ⟨entries, rfl, agree_symm entries others agrees⟩
  | _ =>
    cases (equal_plain_iff (by trivial)).mp same
    exact same

theorem equalItems_symm (items others : List Value) (same : equalItems items others = true) :
    equalItems others items = true := by
  cases items with
  | nil =>
    cases equalItems_nil_iff.mp same
    rfl
  | cons item rest =>
    obtain ⟨other, behind, rfl, first, later⟩ := equalItems_cons_iff.mp same
    exact equalItems_cons_iff.mpr
      ⟨item, rest, rfl, equal_symm item other first, equalItems_symm rest behind later⟩

theorem agree_symm (entries others : List (String × Value))
    (agrees : Entries.agree equal entries others = true) :
    Entries.agree equal others entries = true := by
  cases entries with
  | nil =>
    cases Entries.agree_nil_iff.mp agrees
    rfl
  | cons entry rest =>
    obtain ⟨name, item⟩ := entry
    obtain ⟨other, behind, taken, first, later⟩ := Entries.agree_cons_iff.mp agrees
    exact taken.agree_cons (equal_symm item other first) (agree_symm rest behind later)

end

mutual

theorem equal_trans (first second third : Value) (left : first.equal second = true)
    (right : second.equal third = true) : first.equal third = true := by
  cases first with
  | float number =>
    obtain ⟨other, rfl, leftNumbers⟩ := equal_float_iff.mp left
    obtain ⟨last, rfl, rightNumbers⟩ := equal_float_iff.mp right
    exact Double.equal_trans leftNumbers rightNumbers
  | list items =>
    obtain ⟨others, rfl, leftItems⟩ := equal_list_iff.mp left
    obtain ⟨lasts, rfl, rightItems⟩ := equal_list_iff.mp right
    exact equalItems_trans items others lasts leftItems rightItems
  | object entries =>
    obtain ⟨others, rfl, leftEntries⟩ := equal_object_iff.mp left
    obtain ⟨lasts, rfl, rightEntries⟩ := equal_object_iff.mp right
    exact equal_object_iff.mpr
      ⟨lasts, rfl, agree_trans entries others lasts leftEntries rightEntries⟩
  | _ =>
    cases (equal_plain_iff (by trivial)).mp left
    exact right
termination_by structural first

theorem equalItems_trans (items others lasts : List Value) (left : equalItems items others = true)
    (right : equalItems others lasts = true) : equalItems items lasts = true := by
  cases items with
  | nil =>
    cases equalItems_nil_iff.mp left
    exact right
  | cons item rest =>
    obtain ⟨other, behind, rfl, leftFirst, leftLater⟩ := equalItems_cons_iff.mp left
    obtain ⟨last, final, rfl, rightFirst, rightLater⟩ := equalItems_cons_iff.mp right
    exact equalItems_cons_iff.mpr ⟨last, final, rfl,
      equal_trans item other last leftFirst rightFirst,
      equalItems_trans rest behind final leftLater rightLater⟩
termination_by structural items

theorem agree_trans (entries others lasts : List (String × Value))
    (left : Entries.agree equal entries others = true)
    (right : Entries.agree equal others lasts = true) :
    Entries.agree equal entries lasts = true := by
  cases entries with
  | nil =>
    cases Entries.agree_nil_iff.mp left
    exact right
  | cons entry rest =>
    obtain ⟨name, item⟩ := entry
    obtain ⟨other, behind, taken, leftFirst, leftLater⟩ := Entries.agree_cons_iff.mp left
    -- What the first entry takes from the second list has its like somewhere in the third.
    obtain ⟨last, final, found, rightFirst, rightLater⟩ := taken.exists_agree right
    exact Entries.agree_cons_iff.mpr ⟨last, final, found,
      equal_trans item other last leftFirst rightFirst,
      agree_trans rest behind final leftLater rightLater⟩
termination_by structural entries

end

/-! ### Values that are equal to themselves -/

/-- Whether the value is a not-a-number. -/
def isNaN : Value → Bool
  | .float number => number.isNaN
  | _ => false

/-- Whether no not-a-number stands at any depth of the value. -/
def HasNoNaN (value : Value) : Prop :=
  ∀ leaf ∈ value.leaves, leaf.isNaN = false

theorem leavesOf_eq_flatMap (items : List Value) : leavesOf items = items.flatMap leaves := by
  induction items with
  | nil => rfl
  | cons item rest inductionHypothesis => rw [leavesOf, List.flatMap_cons, inductionHypothesis]

theorem leavesIn_eq_flatMap (entries : List (String × Value)) :
    leavesIn entries = entries.flatMap fun entry => entry.2.leaves := by
  induction entries with
  | nil => rfl
  | cons entry rest inductionHypothesis => rw [leavesIn, List.flatMap_cons, inductionHypothesis]

theorem hasNoNaN_list_iff {items : List Value} :
    (Value.list items).HasNoNaN ↔ ∀ item ∈ items, item.HasNoNaN := by
  rw [HasNoNaN, leaves, leavesOf_eq_flatMap]
  exact List.forall_mem_flatMap

theorem hasNoNaN_object_iff {entries : List (String × Value)} :
    (Value.object entries).HasNoNaN ↔ ∀ entry ∈ entries, entry.2.HasNoNaN := by
  rw [HasNoNaN, leaves, leavesIn_eq_flatMap]
  exact List.forall_mem_flatMap

mutual

theorem equal_self_iff (value : Value) : value.equal value = true ↔ value.HasNoNaN := by
  cases value with
  | float number =>
    show number.equal number = true ↔ ∀ leaf ∈ [Value.float number], leaf.isNaN = false
    rw [Double.equal_self_iff, List.forall_mem_singleton, isNaN]
  | list items =>
    rw [hasNoNaN_list_iff]
    exact equalItems_self_iff items
  | object entries =>
    rw [hasNoNaN_object_iff, equal, agreeEntries_eq]
    exact agree_self_iff entries
  | _ =>
    refine iff_of_true ((equal_plain_iff ?_).mpr rfl) (List.forall_mem_singleton.mpr rfl)
    trivial

theorem equalItems_self_iff (items : List Value) :
    equalItems items items = true ↔ ∀ item ∈ items, item.HasNoNaN := by
  cases items with
  | nil => exact iff_of_true rfl (List.forall_mem_nil _)
  | cons item rest =>
    rw [equalItems, Bool.and_eq_true, equal_self_iff item, equalItems_self_iff rest,
      List.forall_mem_cons]

theorem agree_self_iff (entries : List (String × Value)) :
    Entries.agree equal entries entries = true ↔ ∀ entry ∈ entries, entry.2.HasNoNaN := by
  cases entries with
  | nil => exact iff_of_true rfl (List.forall_mem_nil _)
  | cons entry rest =>
    rw [Entries.agree_cons_self, Bool.and_eq_true, equal_self_iff entry.2, agree_self_iff rest,
      List.forall_mem_cons]

end

/-! ### Entries in other places -/

mutual

/-- Whether no name occurs twice in an object of the value, at any depth. -/
def HasDistinctNames : Value → Prop
  | .list items => HaveDistinctNames items
  | .object entries => (Entries.names entries).Nodup ∧ HaveDistinctNamesIn entries
  | _ => True

/-- Whether no name occurs twice in an object of the items. -/
def HaveDistinctNames : List Value → Prop
  | [] => True
  | item :: rest => item.HasDistinctNames ∧ HaveDistinctNames rest

/-- Whether no name occurs twice in an object of the items of these entries. -/
def HaveDistinctNamesIn : List (String × Value) → Prop
  | [] => True
  | (_, item) :: rest => item.HasDistinctNames ∧ HaveDistinctNamesIn rest

end

theorem hasDistinctNames_list_iff {items : List Value} :
    (Value.list items).HasDistinctNames ↔ ∀ item ∈ items, item.HasDistinctNames := by
  rw [HasDistinctNames]
  induction items with
  | nil => exact iff_of_true trivial (List.forall_mem_nil _)
  | cons item rest inductionHypothesis =>
    rw [HaveDistinctNames, inductionHypothesis, List.forall_mem_cons]

theorem hasDistinctNames_object_iff {entries : List (String × Value)} :
    (Value.object entries).HasDistinctNames ↔
      (Entries.names entries).Nodup ∧ ∀ entry ∈ entries, entry.2.HasDistinctNames := by
  rw [HasDistinctNames]
  refine and_congr_right' ?_
  induction entries with
  | nil => exact iff_of_true trivial (List.forall_mem_nil _)
  | cons entry rest inductionHypothesis =>
    rw [HaveDistinctNamesIn, List.forall_mem_cons, inductionHypothesis]

/-- The object of a list has distinct names, whatever names the list repeats. -/
theorem hasDistinctNames_objectOfList {entries : List (String × Value)}
    (inside : ∀ entry ∈ entries, entry.2.HasDistinctNames) :
    (objectOfList entries).HasDistinctNames := by
  refine hasDistinctNames_object_iff.mpr ?_
  -- Both hold of what has been put so far.
  refine List.foldlRecOn (motive := fun built : List (String × Value) =>
    (Entries.names built).Nodup ∧ ∀ entry ∈ built, entry.2.HasDistinctNames) entries _
    ⟨List.nodup_nil, List.forall_mem_nil _⟩ fun built kept entry member => ?_
  refine ⟨Entries.nodup_names_put entry.1 entry.2 kept.1, fun placed present => ?_⟩
  rcases Entries.mem_put present with rfl | earlier
  · exact inside entry member
  · exact kept.2 placed earlier

/-- The second value is the first one with the entries of its objects, at any depth, in other
places. -/
inductive Reordering : Value → Value → Prop
  | refl (value : Value) : Reordering value value
  | entries {left right : List (String × Value)} (perm : left.Perm right) :
    Reordering (.object left) (.object right)
  | item {before after : List Value} {old new : Value} (inside : Reordering old new) :
    Reordering (.list (before ++ old :: after)) (.list (before ++ new :: after))
  | entry {before after : List (String × Value)} {name : String} {old new : Value}
    (inside : Reordering old new) :
    Reordering (.object (before ++ (name, old) :: after)) (.object (before ++ (name, new) :: after))
  | trans {first second third : Value} (left : Reordering first second)
    (right : Reordering second third) : Reordering first third

namespace Reordering

variable {left right : Value}

/-- What holds no others stays, but for its place. -/
theorem leaves_perm (reordering : left.Reordering right) : left.leaves.Perm right.leaves := by
  induction reordering with
  | refl => exact .refl _
  | entries perm =>
    rw [leaves, leaves, leavesIn_eq_flatMap, leavesIn_eq_flatMap]
    exact perm.flatMap_right _
  | item _ inductionHypothesis =>
    simp only [leaves, leavesOf_eq_flatMap, List.flatMap_append, List.flatMap_cons]
    exact (inductionHypothesis.append_right _).append_left _
  | entry _ inductionHypothesis =>
    simp only [leaves, leavesIn_eq_flatMap, List.flatMap_append, List.flatMap_cons]
    exact (inductionHypothesis.append_right _).append_left _
  | trans _ _ first second => exact first.trans second

theorem hasNoNaN_iff (reordering : left.Reordering right) : left.HasNoNaN ↔ right.HasNoNaN :=
  forall_congr' fun _ => imp_congr_left reordering.leaves_perm.mem_iff

theorem hasDistinctNames (reordering : left.Reordering right) (distinct : left.HasDistinctNames) :
    right.HasDistinctNames := by
  induction reordering with
  | refl => exact distinct
  | entries perm =>
    obtain ⟨names, inside⟩ := hasDistinctNames_object_iff.mp distinct
    exact hasDistinctNames_object_iff.mpr ⟨(Entries.nodup_names_iff_of_perm perm).mp names,
      fun entry member => inside entry (perm.mem_iff.mpr member)⟩
  | item _ inductionHypothesis =>
    simp only [hasDistinctNames_list_iff, List.forall_mem_append,
      List.forall_mem_cons] at distinct ⊢
    exact ⟨distinct.1, inductionHypothesis distinct.2.1, distinct.2.2⟩
  | entry _ inductionHypothesis =>
    simp only [hasDistinctNames_object_iff, List.forall_mem_append, List.forall_mem_cons,
      Entries.names_append, Entries.names_cons] at distinct ⊢
    exact ⟨distinct.1, distinct.2.1, inductionHypothesis distinct.2.2.1, distinct.2.2.2⟩
  | trans _ _ first second => exact second (first distinct)

/-- A value without a not-a-number is equal to what it becomes when entries change places. -/
theorem equal (reordering : left.Reordering right) (distinct : left.HasDistinctNames)
    (proper : left.HasNoNaN) : left.equal right = true := by
  induction reordering with
  | refl value => exact (equal_self_iff value).mpr proper
  | entries perm =>
    have names := (hasDistinctNames_object_iff.mp distinct).1
    refine equal_object_iff.mpr ⟨_, rfl, Entries.agree_of_perm names perm fun entry member => ?_⟩
    exact (equal_self_iff entry.2).mpr (hasNoNaN_object_iff.mp proper entry member)
  | item _ inductionHypothesis =>
    simp only [hasDistinctNames_list_iff, hasNoNaN_list_iff, List.forall_mem_append,
      List.forall_mem_cons] at distinct proper
    have before := equalItems_iff.mp ((equalItems_self_iff _).mpr proper.1)
    have after := equalItems_iff.mp ((equalItems_self_iff _).mpr proper.2.2)
    have here := inductionHypothesis distinct.2.1 proper.2.1
    exact equal_list_iff.mpr
      ⟨_, rfl, equalItems_iff.mpr (List.rel_append before (.cons here after))⟩
  | entry _ inductionHypothesis =>
    simp only [hasDistinctNames_object_iff, hasNoNaN_object_iff, List.forall_mem_append,
      List.forall_mem_cons] at distinct proper
    have before := (agree_self_iff _).mpr proper.1
    have after := (agree_self_iff _).mpr proper.2.2
    have here := inductionHypothesis distinct.2.2.1 proper.2.1
    exact equal_object_iff.mpr ⟨_, rfl,
      Entries.agree_append before (Entries.agree_cons_iff.mpr ⟨_, _, .here, here, after⟩)⟩
  | trans first _ here behind =>
    exact equal_trans _ _ _ (here distinct proper)
      (behind (first.hasDistinctNames distinct) (first.hasNoNaN_iff.mp proper))

/-- Every item of a list may change on its own. -/
theorem items {olds news : List Value} (inside : List.Forall₂ Reordering olds news)
    (before : List Value) : Reordering (.list (before ++ olds)) (.list (before ++ news)) := by
  induction inside generalizing before with
  | nil => exact .refl _
  | @cons _ new _ _ first _ inductionHypothesis =>
    have later := inductionHypothesis (before ++ [new])
    rw [List.append_assoc, List.append_assoc] at later
    exact (item first).trans later

/-- Every item of an object may change on its own. -/
theorem entriesInside {olds news : List (String × Value)}
    (inside : List.Forall₂ (fun old new => old.1 = new.1 ∧ Reordering old.2 new.2) olds news)
    (before : List (String × Value)) :
    Reordering (.object (before ++ olds)) (.object (before ++ news)) := by
  induction inside generalizing before with
  | nil => exact .refl _
  | @cons old new _ _ first _ inductionHypothesis =>
    obtain ⟨name, oldItem⟩ := old
    obtain ⟨_, newItem⟩ := new
    obtain ⟨rfl, first⟩ := first
    have later := inductionHypothesis (before ++ [(name, newItem)])
    rw [List.append_assoc, List.append_assoc] at later
    exact (entry first).trans later

end Reordering

/-! ### What equality sees -/

mutual

/-- Whether the values are equal with their entries in the same places. -/
def equalInOrder : Value → Value → Bool
  | .list left, .list right => equalItemsInOrder left right
  | .object left, .object right => equalEntriesInOrder left right
  | left, right => left.equal right

/-- Equality in order, item by item. -/
def equalItemsInOrder : List Value → List Value → Bool
  | [], [] => true
  | left :: lefts, right :: rights => left.equalInOrder right && equalItemsInOrder lefts rights
  | _, _ => false

/-- Equality in order, entry by entry. -/
def equalEntriesInOrder : List (String × Value) → List (String × Value) → Bool
  | [], [] => true
  | (name, left) :: lefts, (other, right) :: rights =>
    name == other && left.equalInOrder right && equalEntriesInOrder lefts rights
  | _, _ => false

end

theorem equalEntriesInOrder_iff {entries others : List (String × Value)} :
    equalEntriesInOrder entries others = true ↔
      List.Forall₂ (fun entry other => entry.1 = other.1 ∧ entry.2.equalInOrder other.2 = true)
        entries others := by
  induction entries generalizing others with
  | nil => cases others <;> simp [equalEntriesInOrder]
  | cons entry rest inductionHypothesis =>
    cases others <;> simp [equalEntriesInOrder, inductionHypothesis]

mutual

theorem equal_of_equalInOrder (left right : Value) (same : left.equalInOrder right = true) :
    left.equal right = true := by
  cases left with
  | list items =>
    cases right with
    | list others => exact equalItems_of_inOrder items others same
    | _ => exact same
  | object entries =>
    cases right with
    | object others =>
      exact equal_object_iff.mpr ⟨others, rfl, agree_of_inOrder entries others same⟩
    | _ => exact same
  | _ => exact same

theorem equalItems_of_inOrder (items others : List Value)
    (same : equalItemsInOrder items others = true) : equalItems items others = true := by
  cases items with
  | nil =>
    cases others with
    | nil => rfl
    | cons other behind => cases same
  | cons item rest =>
    cases others with
    | nil => cases same
    | cons other behind =>
      obtain ⟨first, later⟩ := Bool.and_eq_true_iff.mp same
      exact equalItems_cons_iff.mpr ⟨other, behind, rfl, equal_of_equalInOrder item other first,
        equalItems_of_inOrder rest behind later⟩

theorem agree_of_inOrder (entries others : List (String × Value))
    (same : equalEntriesInOrder entries others = true) :
    Entries.agree equal entries others = true := by
  cases entries with
  | nil =>
    cases others with
    | nil => rfl
    | cons other behind => cases same
  | cons entry rest =>
    obtain ⟨name, item⟩ := entry
    cases others with
    | nil => cases same
    | cons other behind =>
      obtain ⟨key, found⟩ := other
      rw [equalEntriesInOrder, Bool.and_eq_true, Bool.and_eq_true, beq_iff_eq] at same
      obtain ⟨⟨rfl, first⟩, later⟩ := same
      exact Entries.agree_cons_iff.mpr ⟨found, behind, .here,
        equal_of_equalInOrder item found first, agree_of_inOrder rest behind later⟩

end

/-- What is equal in order to entries can be brought into any other order of these. -/
theorem exists_perm_equalInOrder {left middle right : List (String × Value)}
    (same : equalEntriesInOrder left middle = true) (perm : middle.Perm right) :
    ∃ placed, left.Perm placed ∧ equalEntriesInOrder placed right = true := by
  simp only [equalEntriesInOrder_iff] at same ⊢
  have composed : Relation.Comp (List.Forall₂ fun entry other : String × Value =>
      entry.1 = other.1 ∧ entry.2.equalInOrder other.2 = true) List.Perm left right :=
    ⟨middle, same, perm⟩
  rw [List.forall₂_comp_perm_eq_perm_comp_forall₂] at composed
  exact composed

mutual

/-- Values that are equal differ in the places of entries alone. -/
theorem exists_reordering (left right : Value) (same : left.equal right = true) :
    ∃ middle, left.Reordering middle ∧ middle.equalInOrder right = true := by
  cases left with
  | list items =>
    obtain ⟨others, rfl, same⟩ := equal_list_iff.mp same
    obtain ⟨middles, inside, aligned⟩ := exists_reorderedItems items others same
    exact ⟨.list middles, Reordering.items inside [], aligned⟩
  | object entries =>
    obtain ⟨others, rfl, agrees⟩ := equal_object_iff.mp same
    obtain ⟨middles, placed, inside, perm, aligned⟩ := exists_reorderedEntries entries others agrees
    exact ⟨.object placed, (Reordering.entriesInside inside []).trans (.entries perm), aligned⟩
  | _ => exact ⟨_, .refl _, same⟩

theorem exists_reorderedItems (items others : List Value)
    (same : equalItems items others = true) :
    ∃ middles, List.Forall₂ Reordering items middles ∧ equalItemsInOrder middles others = true := by
  cases items with
  | nil =>
    cases equalItems_nil_iff.mp same
    exact ⟨[], .nil, rfl⟩
  | cons item rest =>
    obtain ⟨other, behind, rfl, first, later⟩ := equalItems_cons_iff.mp same
    obtain ⟨middle, reordered, here⟩ := exists_reordering item other first
    obtain ⟨middles, inside, aligned⟩ := exists_reorderedItems rest behind later
    exact ⟨middle :: middles, .cons reordered inside, Bool.and_eq_true_iff.mpr ⟨here, aligned⟩⟩

theorem exists_reorderedEntries (entries others : List (String × Value))
    (agrees : Entries.agree equal entries others = true) :
    ∃ middles placed : List (String × Value),
      List.Forall₂ (fun entry middle => entry.1 = middle.1 ∧ Reordering entry.2 middle.2)
        entries middles ∧ middles.Perm placed ∧ equalEntriesInOrder placed others = true := by
  cases entries with
  | nil =>
    cases Entries.agree_nil_iff.mp agrees
    exact ⟨[], [], .nil, .refl _, rfl⟩
  | cons entry rest =>
    obtain ⟨name, item⟩ := entry
    obtain ⟨other, behind, taken, first, later⟩ := Entries.agree_cons_iff.mp agrees
    obtain ⟨middle, reordered, here⟩ := exists_reordering item other first
    obtain ⟨middles, placed, inside, perm, aligned⟩ := exists_reorderedEntries rest behind later
    -- The taken entry may stand deep in the others, and its match has to go to the same place.
    have whole :
        equalEntriesInOrder ((name, middle) :: placed) ((name, other) :: behind) = true := by
      rw [equalEntriesInOrder, here, aligned, beq_self_eq_true, Bool.and_true, Bool.and_true]
    obtain ⟨arranged, moved, alignedWhole⟩ := exists_perm_equalInOrder whole taken.perm.symm
    exact ⟨(name, middle) :: middles, arranged, .cons ⟨rfl, reordered⟩ inside,
      (perm.cons _).trans moved, alignedWhole⟩

end

/-- Values are equal exactly if entries of the one can change places so that both are equal entry by
entry. -/
theorem equal_iff_exists_reordering {left right : Value} (distinct : left.HasDistinctNames) :
    left.equal right = true ↔
      ∃ middle, left.Reordering middle ∧ middle.equalInOrder right = true := by
  constructor
  · exact exists_reordering left right
  · rintro ⟨middle, reordering, inOrder⟩
    have same := equal_of_equalInOrder middle right inOrder
    -- What is equal to anything is equal to itself, so there is no not-a-number on either side.
    have proper : middle.HasNoNaN :=
      (equal_self_iff middle).mp (equal_trans _ _ _ same (equal_symm _ _ same))
    exact equal_trans _ _ _ (reordering.equal distinct (reordering.hasNoNaN_iff.mpr proper)) same

end Value

end DocQuery

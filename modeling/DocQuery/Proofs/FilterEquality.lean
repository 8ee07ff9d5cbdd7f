/-
This file proves that filters are compared as their values are.

Fields are matched by name in whatever order they stand, and the filters of each branch in order.
From the equality of values, the equality of filters is symmetric and transitive, and a filter is
equal to itself exactly if none of its constraints holds a not-a-number. Both equalities are put
together at the end.
-/

import DocQuery.Filter.Basic
import DocQuery.Proofs.ValueEquality

namespace DocQuery

namespace Filter

/-- Whether no not-a-number stands in a constraint of the tree, at any depth. -/
def HasNoNaN (filter : Filter) : Prop :=
  ∀ constraint ∈ filter.constraints, constraint.2.HasNoNaN

theorem equal_iff {left right : Filter} :
    left.equal right = true ↔ left.fields.agree Value.equal right.fields = true ∧
      equalBranches left.all right.all = true ∧ equalBranches left.any right.any = true := by
  cases left
  rw [equal, Bool.and_eq_true, Bool.and_eq_true, and_assoc]

theorem equalBranches_cons_iff {filter : Filter} {rest others : List Filter} :
    equalBranches (filter :: rest) others = true ↔
      ∃ other behind, others = other :: behind ∧ filter.equal other = true ∧
        equalBranches rest behind = true := by
  cases others <;> simp [equalBranches]

theorem equalBranches_nil_iff {others : List Filter} :
    equalBranches [] others = true ↔ others = [] := by
  cases others <;> simp [equalBranches]

theorem equalBranches_iff {filters others : List Filter} :
    equalBranches filters others = true ↔
      List.Forall₂ (fun filter other => filter.equal other = true) filters others := by
  induction filters generalizing others with
  | nil => rw [equalBranches_nil_iff, List.forall₂_nil_left_iff]
  | cons filter rest inductionHypothesis =>
    cases others <;> simp [equalBranches, inductionHypothesis]

/-- Fields agree exactly if they give equal values to the same names. -/
theorem agree_fields_iff {left right : Dictionary Value} :
    left.agree Value.equal right = true ↔
      ∀ name, Option.Rel (fun value other => value.equal other = true) (left.find? name)
        (right.find? name) :=
  ⟨Entries.rel_find?_of_agree left.distinct,
    Entries.agree_of_rel_find? left.distinct right.distinct⟩

mutual

theorem equal_symm (left right : Filter) (same : left.equal right = true) :
    right.equal left = true := by
  obtain ⟨fields, all, any⟩ := left
  obtain ⟨sameFields, sameAll, sameAny⟩ := equal_iff.mp same
  exact equal_iff.mpr ⟨Value.agree_symm _ _ sameFields, equalBranches_symm all right.all sameAll,
    equalBranches_symm any right.any sameAny⟩

theorem equalBranches_symm (filters others : List Filter)
    (same : equalBranches filters others = true) : equalBranches others filters = true := by
  cases filters with
  | nil =>
    cases equalBranches_nil_iff.mp same
    rfl
  | cons filter rest =>
    obtain ⟨other, behind, rfl, first, later⟩ := equalBranches_cons_iff.mp same
    exact equalBranches_cons_iff.mpr
      ⟨filter, rest, rfl, equal_symm filter other first, equalBranches_symm rest behind later⟩

end

mutual

theorem equal_trans (first second third : Filter) (left : first.equal second = true)
    (right : second.equal third = true) : first.equal third = true := by
  obtain ⟨fields, all, any⟩ := first
  obtain ⟨leftFields, leftAll, leftAny⟩ := equal_iff.mp left
  obtain ⟨rightFields, rightAll, rightAny⟩ := equal_iff.mp right
  exact equal_iff.mpr ⟨Value.agree_trans _ _ _ leftFields rightFields,
    equalBranches_trans all second.all third.all leftAll rightAll,
    equalBranches_trans any second.any third.any leftAny rightAny⟩
termination_by structural first

theorem equalBranches_trans (filters others lasts : List Filter)
    (left : equalBranches filters others = true) (right : equalBranches others lasts = true) :
    equalBranches filters lasts = true := by
  cases filters with
  | nil =>
    cases equalBranches_nil_iff.mp left
    exact right
  | cons filter rest =>
    obtain ⟨other, behind, rfl, leftFirst, leftLater⟩ := equalBranches_cons_iff.mp left
    obtain ⟨last, final, rfl, rightFirst, rightLater⟩ := equalBranches_cons_iff.mp right
    exact equalBranches_cons_iff.mpr ⟨last, final, rfl,
      equal_trans filter other last leftFirst rightFirst,
      equalBranches_trans rest behind final leftLater rightLater⟩
termination_by structural filters

end

mutual

theorem equal_self_iff (filter : Filter) : filter.equal filter = true ↔ filter.HasNoNaN := by
  obtain ⟨fields, all, any⟩ := filter
  rw [equal_iff, HasNoNaN, constraints, List.forall_mem_append, List.forall_mem_append, and_assoc]
  exact and_congr (Value.agree_self_iff fields.entries)
    (and_congr (equalBranches_self_iff all) (equalBranches_self_iff any))

theorem equalBranches_self_iff (filters : List Filter) :
    equalBranches filters filters = true ↔
      ∀ constraint ∈ constraintsOf filters, constraint.2.HasNoNaN := by
  cases filters with
  | nil => exact iff_of_true rfl (List.forall_mem_nil _)
  | cons filter rest =>
    rw [equalBranches, Bool.and_eq_true, constraintsOf, List.forall_mem_append,
      equal_self_iff filter, equalBranches_self_iff rest, HasNoNaN]

end

end Filter

/-! ### Both equalities -/

/-- A comparison that is symmetric and transitive, under which exactly some are equal to
themselves. -/
structure IsPartialEquivalence {Item : Type} (equal : Item → Item → Bool) (Proper : Item → Prop) :
    Prop where
  /-- The sides can be exchanged. -/
  symm (left right : Item) : equal left right = true → equal right left = true
  /-- What is equal to the same is equal. -/
  trans (first second third : Item) :
    equal first second = true → equal second third = true → equal first third = true
  /-- Who is equal to itself. -/
  self_iff (item : Item) : equal item item = true ↔ Proper item

/-- Values and filters are each compared by a partial equivalence, under which those without a
not-a-number are equal to themselves. A value without one is equal to each of its reorderings, and
any two that are equal are so in order once the entries of one have changed places. Two objects are
equal exactly if they are of the same size and each entry of the one finds an equal value under its
name in the other. That no name occurs twice, where it is asked for, holds of whatever is made of
lists of entries. Of two filters that are equal, the fields of the same name hold equal values, and
the branches are equal filter by filter. -/
theorem equality_upToOrder :
    IsPartialEquivalence Value.equal Value.HasNoNaN ∧
    (∀ left right : Value, left.HasDistinctNames → left.HasNoNaN → left.Reordering right →
      left.equal right = true) ∧
    (∀ left right : Value, left.HasDistinctNames →
      (left.equal right = true ↔
        ∃ middle, left.Reordering middle ∧ middle.equalInOrder right = true)) ∧
    (∀ left right : List (String × Value), (Entries.names left).Nodup →
      ((Value.object left).equal (.object right) = true ↔
        left.length = right.length ∧
          ∀ entry ∈ left, ∃ item, Entries.find? entry.1 right = some item ∧
            entry.2.equal item = true)) ∧
    (∀ entries : List (String × Value), (∀ entry ∈ entries, entry.2.HasDistinctNames) →
      (Value.objectOfList entries).HasDistinctNames) ∧
    IsPartialEquivalence Filter.equal Filter.HasNoNaN ∧
    ∀ left right : Filter, left.equal right = true ↔
      (∀ name, Option.Rel (fun value other => value.equal other = true) (left.fields.find? name)
        (right.fields.find? name)) ∧
      List.Forall₂ (fun filter other => filter.equal other = true) left.all right.all ∧
      List.Forall₂ (fun filter other => filter.equal other = true) left.any right.any := by
  refine ⟨⟨Value.equal_symm, Value.equal_trans, Value.equal_self_iff⟩, ?reordered, ?exactly,
    ?objects, ?built, ⟨Filter.equal_symm, Filter.equal_trans, Filter.equal_self_iff⟩, ?filters⟩
  case reordered =>
    intro left right distinct proper reordering
    exact reordering.equal distinct proper
  case exactly =>
    intro left right distinct
    exact Value.equal_iff_exists_reordering distinct
  case objects =>
    intro left right distinct
    exact Value.equal_objects_iff distinct
  case built =>
    intro entries inside
    exact Value.hasDistinctNames_objectOfList inside
  case filters =>
    intro left right
    rw [Filter.equal_iff, Filter.agree_fields_iff, Filter.equalBranches_iff,
      Filter.equalBranches_iff]

/-- The entries change places in an object inside a list as well as in the object around it. -/
theorem equality_upToOrder_twoDepths :
    let places := ("places", Value.list [.object [("street", .string "Main"), ("number", .int 5)]])
    let turned := ("places", Value.list [.object [("number", .int 5), ("street", .string "Main")]])
    let active := ("active", Value.bool true)
    (Value.object [places, active]).HasDistinctNames ∧ (Value.object [places, active]).HasNoNaN ∧
      (Value.object [places, active]).Reordering (.object [active, turned]) ∧
      (Value.object [places, active]).equal (.object [active, turned]) = true := by
  intro places turned active
  have distinct : (Value.object [places, active]).HasDistinctNames :=
    ⟨by decide, ⟨⟨⟨by decide, trivial, trivial, trivial⟩, trivial⟩, trivial, trivial⟩⟩
  have proper : (Value.object [places, active]).HasNoNaN := by
    show ∀ leaf ∈ [Value.string "Main", .int 5, .bool true], leaf.isNaN = false
    simp [Value.isNaN]
  have reordering : (Value.object [places, active]).Reordering (.object [active, turned]) := by
    have inside : Value.Reordering places.2 turned.2 :=
      .items (.cons (.entries (.swap _ _ _)) .nil) []
    have first : (Value.object [places, active]).Reordering (.object [turned, active]) := by
      refine .entriesInside ?_ []
      exact .cons ⟨rfl, inside⟩ (.cons ⟨rfl, .refl _⟩ .nil)
    exact first.trans (.entries (.swap _ _ _))
  exact ⟨distinct, proper, reordering, equality_upToOrder.2.1 _ _ distinct proper reordering⟩

end DocQuery

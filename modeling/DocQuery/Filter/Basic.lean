/-
This file holds filters: conditions on the records of a table, as trees.

A filter asks that each of its fields has the given value, that all filters of one branch hold
and that one filter of the other branch holds. A filter without a constraint anywhere in its
tree asks for nothing, and such filters are ignored wherever they stand. Constraints are listed
depth first: those of a level, then those of the first branch, then those of the second.
-/

import DocQuery.Bindings

namespace DocQuery

/-- A condition on records. -/
structure Filter where
  /-- Values that fields must have. -/
  fields : Dictionary Value
  /-- Filters that must all hold. -/
  all : List Filter
  /-- Filters of which one must hold. -/
  any : List Filter

/-- A field and the value that it must have. -/
abbrev Constraint := String × Value

namespace Filter

/-- The filter that asks for nothing. -/
def empty : Filter :=
  ⟨Dictionary.empty, [], []⟩

instance : Inhabited Filter := ⟨empty⟩

/-- The filter that asks for all of the given ones. -/
def ofAll (filters : List Filter) : Filter :=
  ⟨Dictionary.empty, filters, []⟩

/-- The filter that asks for one of the given ones. -/
def ofAny (filters : List Filter) : Filter :=
  ⟨Dictionary.empty, [], filters⟩

/-! ### Constraints -/

mutual

/-- Whether no constraint stands anywhere in the tree. -/
def isEmpty : Filter → Bool
  | ⟨fields, all, any⟩ => fields.isEmpty && areEmpty all && areEmpty any

/-- Whether no constraint stands anywhere in the trees. -/
def areEmpty : List Filter → Bool
  | [] => true
  | filter :: rest => filter.isEmpty && areEmpty rest

end

mutual

/-- The number of constraints in the tree. -/
def constraintCount : Filter → Nat
  | ⟨fields, all, any⟩ => fields.size + constraintCounts all + constraintCounts any

/-- The number of constraints in the trees. -/
def constraintCounts : List Filter → Nat
  | [] => 0
  | filter :: rest => filter.constraintCount + constraintCounts rest

end

mutual

/-- The constraints of the tree, depth first. -/
def constraints : Filter → List Constraint
  | ⟨fields, all, any⟩ => fields.entries ++ constraintsOf all ++ constraintsOf any

/-- The constraints of the trees, in order. -/
def constraintsOf : List Filter → List Constraint
  | [] => []
  | filter :: rest => filter.constraints ++ constraintsOf rest

end

/-! ### Equality -/

mutual

/-- Equality of filters: the order matters in the branches but not among the fields. -/
def equal : Filter → Filter → Bool
  | ⟨fields, all, any⟩, right =>
    fields.agree Value.equal right.fields && equalBranches all right.all
      && equalBranches any right.any

/-- Equality of branches, filter by filter. -/
def equalBranches : List Filter → List Filter → Bool
  | [], [] => true
  | left :: lefts, right :: rights => left.equal right && equalBranches lefts rights
  | _, _ => false

end

/-! ### Counting agrees with listing -/

mutual

theorem length_constraints : (filter : Filter) →
    filter.constraints.length = filter.constraintCount
  | ⟨fields, all, any⟩ => by
    simp only [constraints, constraintCount, List.length_append, length_constraintsOf all,
      length_constraintsOf any, Dictionary.size]

theorem length_constraintsOf : (filters : List Filter) →
    (constraintsOf filters).length = constraintCounts filters
  | [] => rfl
  | filter :: rest => by
    simp only [constraintsOf, constraintCounts, List.length_append, length_constraints filter,
      length_constraintsOf rest]

end

mutual

theorem isEmpty_iff_constraints : (filter : Filter) →
    (filter.isEmpty = true ↔ filter.constraints = [])
  | ⟨fields, all, any⟩ => by
    simp only [isEmpty, constraints, Bool.and_eq_true, List.append_eq_nil_iff,
      areEmpty_iff_constraintsOf all, areEmpty_iff_constraintsOf any, Dictionary.isEmpty,
      List.isEmpty_iff]

theorem areEmpty_iff_constraintsOf : (filters : List Filter) →
    (areEmpty filters = true ↔ constraintsOf filters = [])
  | [] => by simp [areEmpty, constraintsOf]
  | filter :: rest => by
    simp only [areEmpty, constraintsOf, Bool.and_eq_true, List.append_eq_nil_iff,
      isEmpty_iff_constraints filter, areEmpty_iff_constraintsOf rest]

end

end Filter

end DocQuery

/-
This file says what a filter asks of a record and proves that its condition asks for the same.

A record enters only through the comparisons that it satisfies: for a field and a value, whether
the record has that value in that field. Which equality of values decides this is left open, so
what is proved holds for whatever a database takes it to be.

A filter without a constraint asks for nothing and is left out wherever it stands. In a branch of
which all filters must hold that changes nothing, but in a branch of which one must hold it does:
a branch without any constraint is satisfied, while no filter of it counts as one that holds.
-/

import DocQuery.Filter.Condition

namespace DocQuery

/-! ### The meaning of a filter -/

namespace Filter

mutual

/-- Whether a record that satisfies the given comparisons is one that the filter asks for: each
of its own constraints holds, each filter of the first branch that has a constraint holds, and
one of those of the second branch, if there are any. -/
def meets (holds : Constraint → Bool) : Filter → Bool
  | ⟨fields, all, any⟩ =>
    fields.entries.all holds && allMeet holds all && (areEmpty any || someMeets holds any)

/-- Whether each of the filters that have a constraint holds. -/
def allMeet (holds : Constraint → Bool) : List Filter → Bool
  | [] => true
  | filter :: rest => (filter.isEmpty || filter.meets holds) && allMeet holds rest

/-- Whether one of the filters that have a constraint holds. -/
def someMeets (holds : Constraint → Bool) : List Filter → Bool
  | [] => false
  | filter :: rest => (!filter.isEmpty && filter.meets holds) || someMeets holds rest

end

theorem areEmpty_iff (filters : List Filter) :
    areEmpty filters = true ↔ ∀ filter ∈ filters, filter.isEmpty = true := by
  induction filters with
  | nil => simp [areEmpty]
  | cons filter rest inductionHypothesis => simp [areEmpty, inductionHypothesis]

theorem allMeet_iff (holds : Constraint → Bool) (filters : List Filter) :
    allMeet holds filters = true ↔
      ∀ filter ∈ filters, filter.isEmpty = false → filter.meets holds = true := by
  induction filters with
  | nil => simp [allMeet]
  | cons filter rest inductionHypothesis =>
    rw [allMeet, Bool.and_eq_true, inductionHypothesis, List.forall_mem_cons]
    cases filter.isEmpty <;> simp

theorem someMeets_iff (holds : Constraint → Bool) (filters : List Filter) :
    someMeets holds filters = true ↔
      ∃ filter ∈ filters, filter.isEmpty = false ∧ filter.meets holds = true := by
  induction filters with
  | nil => simp [someMeets]
  | cons filter rest inductionHypothesis =>
    rw [someMeets, Bool.or_eq_true, inductionHypothesis]
    cases empty : filter.isEmpty <;> simp [empty]

/-- The meaning of a filter in terms of its constraints and of the filters in its branches. -/
theorem meets_iff (holds : Constraint → Bool) (filter : Filter) :
    filter.meets holds = true ↔
      (∀ constraint ∈ filter.fields.entries, holds constraint = true) ∧
      (∀ child ∈ filter.all, child.isEmpty = false → child.meets holds = true) ∧
      ((∃ child ∈ filter.any, child.isEmpty = false) →
        ∃ child ∈ filter.any, child.isEmpty = false ∧ child.meets holds = true) := by
  obtain ⟨fields, all, any⟩ := filter
  rw [meets, Bool.and_eq_true, Bool.and_eq_true, Bool.or_eq_true, List.all_eq_true, allMeet_iff,
    someMeets_iff, areEmpty_iff, and_assoc]
  refine and_congr_right fun _ => and_congr_right fun _ => ?_
  constructor
  · rintro (none | some) ⟨child, member, asks⟩
    · rw [none child member] at asks
      cases asks
    · exact some
  · intro some
    by_cases asks : ∃ child ∈ any, child.isEmpty = false
    · exact Or.inr (some asks)
    · refine Or.inl fun child member => eq_true_of_ne_false fun other => ?_
      exact asks ⟨child, member, other⟩

end Filter

/-! ### The meaning of a condition -/

namespace Connective

/-- Whether a group holds whose members have these truth values. -/
def combine : Connective → List Bool → Bool
  | .and, values => values.all id
  | .or, values => values.any id

@[simp] theorem combine_singleton (connective : Connective) (value : Bool) :
    connective.combine [value] = value := by
  cases connective <;> simp [combine]

end Connective

namespace Condition

variable {Leaf : Type}

mutual

/-- Whether a condition holds whose comparisons have these truth values. -/
def eval (holds : Leaf → Bool) : Condition Leaf → Bool
  | .compare leaf => holds leaf
  | .group connective members => connective.combine (evals holds members)

/-- The truth values of conditions. -/
def evals (holds : Leaf → Bool) : List (Condition Leaf) → List Bool
  | [] => []
  | member :: rest => member.eval holds :: evals holds rest

end

mutual

/-- Whether no group in the condition is empty. -/
def isProper : Condition Leaf → Bool
  | .compare _ => true
  | .group _ members => !members.isEmpty && areProper members

/-- Whether no group in the conditions is empty. -/
def areProper : List (Condition Leaf) → Bool
  | [] => true
  | member :: rest => member.isProper && areProper rest

end

/-- Whether the condition is a group. -/
def isGroup : Condition Leaf → Bool
  | .compare _ => false
  | .group _ _ => true

@[simp] theorem evals_append (holds : Leaf → Bool) (left right : List (Condition Leaf)) :
    evals holds (left ++ right) = evals holds left ++ evals holds right := by
  induction left with
  | nil => rfl
  | cons member rest inductionHypothesis => simp [evals, inductionHypothesis]

@[simp] theorem evals_map_compare (holds : Leaf → Bool) (leaves : List Leaf) :
    evals holds (leaves.map .compare) = leaves.map holds := by
  induction leaves with
  | nil => rfl
  | cons leaf rest inductionHypothesis => simp [evals, eval, inductionHypothesis]

@[simp] theorem areProper_append (left right : List (Condition Leaf)) :
    areProper (left ++ right) = (areProper left && areProper right) := by
  induction left with
  | nil => simp [areProper]
  | cons member rest inductionHypothesis => simp [areProper, inductionHypothesis, Bool.and_assoc]

@[simp] theorem areProper_map_compare (leaves : List Leaf) :
    areProper (leaves.map Condition.compare) = true := by
  induction leaves with
  | nil => rfl
  | cons leaf rest inductionHypothesis => simp [areProper, isProper, inductionHypothesis]

theorem isEmpty_append (left right : List (Condition Leaf)) :
    (left ++ right).isEmpty = (left.isEmpty && right.isEmpty) := by
  cases left <;> rfl

@[simp] theorem isEmpty_part (connective : Connective) (members : List (Condition Leaf)) :
    (part connective members).isEmpty = members.isEmpty := by
  cases members <;> rfl

theorem areProper_part (connective : Connective) (members : List (Condition Leaf)) :
    areProper (part connective members) = areProper members := by
  cases members <;> simp [part, areProper, isProper]

theorem isGroup_of_mem_part {connective : Connective} {members : List (Condition Leaf)}
    {condition : Condition Leaf} (member : condition ∈ part connective members) :
    condition.isGroup = true := by
  unfold part at member
  split at member
  · cases member
  · rw [List.mem_singleton.mp member, isGroup]

/-- The part of a connective holds if there is nothing to join or if what is joined holds. -/
theorem evals_part_all (holds : Leaf → Bool) (connective : Connective)
    (members : List (Condition Leaf)) :
    (evals holds (part connective members)).all id =
      (members.isEmpty || connective.combine (evals holds members)) := by
  cases members <;> simp [part, evals, eval]

theorem isNone_ofParts (parts : List (Condition Leaf)) :
    (ofParts parts).isNone = parts.isEmpty := by
  match parts with
  | [] => rfl
  | [_] => rfl
  | _ :: _ :: _ => rfl

/-- A level holds if each of its parts does. -/
theorem eval_ofParts (holds : Leaf → Bool) {parts : List (Condition Leaf)}
    {condition : Condition Leaf} (level : ofParts parts = some condition) :
    condition.eval holds = (evals holds parts).all id := by
  match parts with
  | [] => cases level
  | [single] =>
    cases level
    simp [evals]
  | first :: second :: rest =>
    cases level
    rfl

theorem isProper_ofParts {parts : List (Condition Leaf)} {condition : Condition Leaf}
    (level : ofParts parts = some condition) : condition.isProper = areProper parts := by
  match parts with
  | [] => cases level
  | [single] =>
    cases level
    simp [areProper]
  | first :: second :: rest =>
    cases level
    simp [isProper]

theorem isGroup_ofParts {parts : List (Condition Leaf)} {condition : Condition Leaf}
    (groups : ∀ part ∈ parts, part.isGroup = true) (level : ofParts parts = some condition) :
    condition.isGroup = true := by
  match parts with
  | [] => cases level
  | [single] =>
    cases level
    exact groups _ List.mem_cons_self
  | first :: second :: rest =>
    cases level
    rfl

end Condition

/-! ### The condition of a filter keeps its meaning -/

namespace Filter

mutual

/-- A filter has no condition exactly if it has no constraint. -/
theorem isNone_condition? : (filter : Filter) → filter.condition?.isNone = filter.isEmpty
  | ⟨fields, all, any⟩ => by
    rw [condition?, isEmpty, Condition.isNone_ofParts, Condition.isEmpty_append,
      Condition.isEmpty_append, Condition.isEmpty_part, Condition.isEmpty_part,
      Condition.isEmpty_part, List.isEmpty_map, isEmpty_conditions all, isEmpty_conditions any,
      Dictionary.isEmpty]

theorem isEmpty_conditions : (filters : List Filter) →
    (conditions filters).isEmpty = areEmpty filters
  | [] => rfl
  | filter :: rest => by
    rw [conditions, areEmpty, Condition.isEmpty_append, isEmpty_conditions rest,
      ← isNone_condition? filter]
    cases filter.condition? <;> rfl

end

mutual

/-- The condition of a filter holds for the records that the filter asks for. -/
theorem eval_condition? (holds : Constraint → Bool) : (filter : Filter) →
    (condition : Condition Constraint) → filter.condition? = some condition →
      condition.eval holds = filter.meets holds
  | ⟨fields, all, any⟩, condition, level => by
    rw [condition?] at level
    rw [Condition.eval_ofParts holds level, meets, Condition.evals_append, Condition.evals_append,
      List.all_append, List.all_append, Condition.evals_part_all, Condition.evals_part_all,
      Condition.evals_part_all, Condition.evals_map_compare, isEmpty_conditions any,
      ← all_evals_conditions holds all, ← any_evals_conditions holds any, Connective.combine,
      Connective.combine, Connective.combine, List.isEmpty_map]
    cases fields.entries <;> cases conditions all <;> simp [Condition.evals]

theorem all_evals_conditions (holds : Constraint → Bool) : (filters : List Filter) →
    (Condition.evals holds (conditions filters)).all id = allMeet holds filters
  | [] => rfl
  | filter :: rest => by
    rw [conditions, Condition.evals_append, List.all_append, all_evals_conditions holds rest,
      allMeet, ← isNone_condition? filter]
    cases level : filter.condition? with
    | none => rfl
    | some condition => simp [Condition.evals, eval_condition? holds filter condition level]

theorem any_evals_conditions (holds : Constraint → Bool) : (filters : List Filter) →
    (Condition.evals holds (conditions filters)).any id = someMeets holds filters
  | [] => rfl
  | filter :: rest => by
    rw [conditions, Condition.evals_append, List.any_append, any_evals_conditions holds rest,
      someMeets, ← isNone_condition? filter]
    cases level : filter.condition? with
    | none => rfl
    | some condition => simp [Condition.evals, eval_condition? holds filter condition level]

end

mutual

/-- No group in the condition of a filter is empty. -/
theorem isProper_condition? : (filter : Filter) → (condition : Condition Constraint) →
    filter.condition? = some condition → condition.isProper = true
  | ⟨fields, all, any⟩, condition, level => by
    rw [condition?] at level
    rw [Condition.isProper_ofParts level, Condition.areProper_append, Condition.areProper_append,
      Condition.areProper_part, Condition.areProper_part, Condition.areProper_part,
      Condition.areProper_map_compare, areProper_conditions all, areProper_conditions any]
    rfl

theorem areProper_conditions : (filters : List Filter) →
    Condition.areProper (conditions filters) = true
  | [] => rfl
  | filter :: rest => by
    rw [conditions, Condition.areProper_append, areProper_conditions rest, Bool.and_true]
    cases level : filter.condition? with
    | none => rfl
    | some condition =>
      simp [Condition.areProper, isProper_condition? filter condition level]

end

theorem isGroup_condition? {filter : Filter} {condition : Condition Constraint}
    (level : filter.condition? = some condition) : condition.isGroup = true := by
  obtain ⟨fields, all, any⟩ := filter
  rw [condition?] at level
  refine Condition.isGroup_ofParts (fun part member => ?_) level
  rw [List.mem_append, List.mem_append] at member
  rcases member with (member | member) | member <;> exact Condition.isGroup_of_mem_part member

end Filter

end DocQuery

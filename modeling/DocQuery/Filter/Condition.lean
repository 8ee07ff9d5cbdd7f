/-
This file holds conditions: what remains of a filter once everything that asks for nothing is
gone, with every group made explicit.

A condition compares a field or joins conditions with one connective. A level of a filter has up
to three parts: its fields joined with `AND`, the filters of its first branch joined with `AND`
and those of its second joined with `OR`. A level with one part is that part, and a level with
more joins them with `AND` in a group of their own. The leaves of the condition of a filter are
its constraints, in their order, whatever is stored in a leaf.
-/

import DocQuery.Filter.Basic

namespace DocQuery

/-- What joins the members of a group. -/
inductive Connective where
  | and
  | or
  deriving DecidableEq

/-- Comparisons, grouped by connectives. -/
inductive Condition (Leaf : Type) where
  | compare (leaf : Leaf)
  | group (connective : Connective) (members : List (Condition Leaf))

namespace Condition

variable {Leaf : Type}

mutual

/-- The leaves of a condition, in order. -/
def leaves : Condition Leaf → List Leaf
  | .compare leaf => [leaf]
  | .group _ members => leavesOf members

/-- The leaves of conditions, in order. -/
def leavesOf : List (Condition Leaf) → List Leaf
  | [] => []
  | member :: rest => member.leaves ++ leavesOf rest

end

@[simp] theorem leavesOf_append (left right : List (Condition Leaf)) :
    leavesOf (left ++ right) = leavesOf left ++ leavesOf right := by
  induction left with
  | nil => simp [leavesOf]
  | cons member rest inductionHypothesis => simp [leavesOf, inductionHypothesis]

@[simp] theorem leavesOf_map_compare (entries : List Leaf) :
    leavesOf (entries.map .compare) = entries := by
  induction entries with
  | nil => rfl
  | cons entry rest inductionHypothesis => simp [leavesOf, leaves, inductionHypothesis]

/-- A group of the members, if there are any. -/
def part (connective : Connective) (members : List (Condition Leaf)) : List (Condition Leaf) :=
  if members.isEmpty then [] else [.group connective members]

/-- One part stands for itself, several are joined, and none asks for nothing. -/
def ofParts : List (Condition Leaf) → Option (Condition Leaf)
  | [] => none
  | [single] => some single
  | parts => some (.group .and parts)

theorem leavesOf_part (connective : Connective) (members : List (Condition Leaf)) :
    leavesOf (part connective members) = leavesOf members := by
  cases members with
  | nil => rfl
  | cons member rest => simp [part, leavesOf, leaves]

theorem leaves_ofParts (parts : List (Condition Leaf)) :
    ((ofParts parts).map leaves).getD [] = leavesOf parts := by
  match parts with
  | [] => rfl
  | [single] => simp [ofParts, leavesOf]
  | first :: second :: rest => simp [ofParts, leaves]

end Condition

namespace Filter

mutual

/-- The condition of a filter, if it asks for anything. -/
def condition? : Filter → Option (Condition Constraint)
  | ⟨fields, all, any⟩ =>
    Condition.ofParts
      (Condition.part .and (fields.entries.map .compare) ++
        Condition.part .and (conditions all) ++ Condition.part .or (conditions any))

/-- The conditions of those filters that ask for anything, in order. -/
def conditions : List Filter → List (Condition Constraint)
  | [] => []
  | filter :: rest => filter.condition?.toList ++ conditions rest

end

mutual

/-- The condition of a filter compares exactly its constraints, in their order. -/
theorem leaves_condition? : (filter : Filter) →
    (filter.condition?.map Condition.leaves).getD [] = filter.constraints
  | ⟨fields, all, any⟩ => by
    simp only [condition?, constraints, Condition.leaves_ofParts, Condition.leavesOf_append,
      Condition.leavesOf_part, Condition.leavesOf_map_compare, leavesOf_conditions all,
      leavesOf_conditions any]

theorem leavesOf_conditions : (filters : List Filter) →
    Condition.leavesOf (conditions filters) = constraintsOf filters
  | [] => rfl
  | filter :: rest => by
    have here := leaves_condition? filter
    simp only [conditions, constraintsOf, Condition.leavesOf_append, leavesOf_conditions rest,
      ← here]
    cases filter.condition? <;> simp [Condition.leavesOf]

end

end Filter

end DocQuery

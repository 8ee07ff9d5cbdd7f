/-
This file proves that filters without a constraint leave no trace in a statement.

Whether a filter asks for anything is looked at anew at three places: for the clause as a whole, for
each branch of a level, and for each filter of a branch. Pruning removes the filters that ask for
nothing from all branches at every depth. It removes no constraint, so it changes no answer to the
question at any of these places, and what stands in the branches afterwards is what was not passed
over before. The steps of a filter are therefore the same before and after, and with them the text
and all bindings.
-/

import DocQuery.Proofs.Emission
import DocQuery.Proofs.StatementText

namespace DocQuery

namespace Filter

/-! ### Pruning -/

mutual

/-- The filter with every filter that has no constraint removed from its branches, at every
depth. -/
def prune : Filter → Filter
  | ⟨fields, all, any⟩ => ⟨fields, pruneAll all, pruneAll any⟩

/-- The filters that have a constraint, pruned. -/
def pruneAll : List Filter → List Filter
  | [] => []
  | filter :: rest => if filter.isEmpty then pruneAll rest else filter.prune :: pruneAll rest

end

theorem pruneAll_cons_of_isEmpty {filter : Filter} (empty : filter.isEmpty = true)
    (rest : List Filter) : pruneAll (filter :: rest) = pruneAll rest := by
  rw [pruneAll, if_pos empty]

theorem pruneAll_cons_of_asks {filter : Filter} (asks : filter.isEmpty = false)
    (rest : List Filter) : pruneAll (filter :: rest) = filter.prune :: pruneAll rest := by
  rw [pruneAll, asks, if_neg Bool.false_ne_true]

mutual

/-- Pruning removes no constraint. -/
theorem constraints_prune : (filter : Filter) → filter.prune.constraints = filter.constraints
  | ⟨fields, all, any⟩ => by
    rw [prune, constraints, constraints, constraintsOf_pruneAll all, constraintsOf_pruneAll any]

theorem constraintsOf_pruneAll : (filters : List Filter) →
    constraintsOf (pruneAll filters) = constraintsOf filters
  | [] => rfl
  | filter :: rest => by
    rw [constraintsOf]
    cases asks : filter.isEmpty with
    | true =>
      rw [pruneAll_cons_of_isEmpty asks, (isEmpty_iff_constraints filter).mp asks,
        List.nil_append, constraintsOf_pruneAll rest]
    | false =>
      rw [pruneAll_cons_of_asks asks, constraintsOf, constraints_prune filter,
        constraintsOf_pruneAll rest]

end

theorem isEmpty_prune (filter : Filter) : filter.prune.isEmpty = filter.isEmpty := by
  rw [Bool.eq_iff_iff, isEmpty_iff_constraints, isEmpty_iff_constraints, constraints_prune]

theorem areEmpty_pruneAll (filters : List Filter) :
    areEmpty (pruneAll filters) = areEmpty filters := by
  rw [Bool.eq_iff_iff, areEmpty_iff_constraintsOf, areEmpty_iff_constraintsOf,
    constraintsOf_pruneAll]

/-! ### What pruning leaves -/

/-- The filter stands in a branch of the other one, at some depth. -/
inductive Within (inner : Filter) : Filter → Prop
  | here {outer : Filter} (branch : inner ∈ outer.all ++ outer.any) : Within inner outer
  | deeper {outer child : Filter} (branch : child ∈ outer.all ++ outer.any)
      (within : Within inner child) : Within inner outer

theorem mem_pruneAll {child : Filter} {filters : List Filter} (member : child ∈ pruneAll filters) :
    ∃ filter ∈ filters, filter.isEmpty = false ∧ child = filter.prune := by
  induction filters with
  | nil => cases member
  | cons filter rest inductionHypothesis =>
    cases asks : filter.isEmpty with
    | true =>
      rw [pruneAll_cons_of_isEmpty asks] at member
      obtain ⟨other, among, found⟩ := inductionHypothesis member
      exact ⟨other, List.mem_cons_of_mem filter among, found⟩
    | false =>
      rw [pruneAll_cons_of_asks asks] at member
      rcases List.mem_cons.mp member with same | later
      · exact ⟨filter, List.mem_cons_self, asks, same⟩
      · obtain ⟨other, among, found⟩ := inductionHypothesis later
        exact ⟨other, List.mem_cons_of_mem filter among, found⟩

/-- What stands in a branch of a pruned filter is a pruned filter that has a constraint. -/
theorem mem_branches_prune {child filter : Filter}
    (member : child ∈ filter.prune.all ++ filter.prune.any) :
    ∃ original : Filter, original.isEmpty = false ∧ child = original.prune := by
  obtain ⟨fields, all, any⟩ := filter
  rw [prune, List.mem_append] at member
  rcases member with member | member
  · obtain ⟨original, -, found⟩ := mem_pruneAll member
    exact ⟨original, found⟩
  · obtain ⟨original, -, found⟩ := mem_pruneAll member
    exact ⟨original, found⟩

/-- Every filter that stands in a pruned one has a constraint. -/
theorem asks_of_within_prune {inner filter : Filter} (within : inner.Within filter.prune) :
    inner.isEmpty = false := by
  generalize pruned : filter.prune = outer at within
  induction within generalizing filter with
  | here branch =>
    rw [← pruned] at branch
    obtain ⟨original, asks, rfl⟩ := mem_branches_prune branch
    rw [isEmpty_prune, asks]
  | deeper branch _ inductionHypothesis =>
    rw [← pruned] at branch
    obtain ⟨original, -, same⟩ := mem_branches_prune branch
    exact inductionHypothesis same.symm

/-! ### The steps of a pruned filter -/

mutual

/-- A pruned filter is written and bound in the same steps. -/
theorem steps_prune : (filter : Filter) → filter.prune.steps = filter.steps
  | ⟨fields, all, any⟩ => by
    rw [prune, steps, steps, areEmpty_pruneAll, areEmpty_pruneAll, branchSteps_pruneAll all,
      branchSteps_pruneAll any]

theorem branchSteps_pruneAll : (filters : List Filter) →
    branchSteps (pruneAll filters) = branchSteps filters
  | [] => rfl
  | filter :: rest => by
    rw [branchSteps]
    cases asks : filter.isEmpty with
    | true => rw [pruneAll_cons_of_isEmpty asks, if_pos rfl, branchSteps_pruneAll rest]
    | false =>
      rw [pruneAll_cons_of_asks asks, branchSteps, isEmpty_prune, asks, steps_prune filter,
        branchSteps_pruneAll rest]

end

theorem clauseSteps_prune (filter : Filter) :
    clauseSteps (some filter.prune) = clauseSteps (some filter) := by
  rw [clauseSteps, clauseSteps, Option.filter_some, Option.filter_some, isEmpty_prune]
  cases filter.isEmpty with
  | true => rfl
  | false => exact congrArg (Step.word " WHERE " :: ·) filter.steps_prune

/-- A filter without constraints has the clause of no filter. -/
theorem clauseSteps_of_isEmpty {filter : Filter} (empty : filter.isEmpty = true) :
    clauseSteps (some filter) = clauseSteps none := by
  rw [clauseSteps, Option.filter_some, empty]
  rfl

/-- The text of the clause of a filter, which is there exactly if the filter has a constraint. -/
structure HasClause (filter : Filter) (clause : String) : Prop where
  given_iff : (∃ expression, clause = " WHERE " ++ expression) ↔ 0 < filter.constraintCount
  absent_iff : clause = "" ↔ filter.constraintCount = 0

theorem constraintCount_eq_zero_iff (filter : Filter) :
    filter.constraintCount = 0 ↔ filter.constraints = [] := by
  rw [← length_constraints, List.length_eq_zero_iff]

/-- The clause of a filter is nothing or stands behind its keyword. -/
theorem hasClause (filter : Filter) (parameters : Parameters) :
    filter.HasClause (Piece.writeAll (clause (some filter) parameters).1) := by
  have keyword (expression : String) : " WHERE " ++ expression ≠ "" := by simp
  have counts : filter.constraintCount = 0 ↔ filter.condition? = none := by
    rw [constraintCount_eq_zero_iff, ← isEmpty_iff_constraints, ← isNone_condition?,
      Option.isNone_iff_eq_none]
  rw [clause, Option.bind_some]
  cases asks : filter.condition? with
  | none =>
    have nothing := counts.mpr asks
    refine ⟨iff_of_false ?_ (by omega), iff_of_true rfl nothing⟩
    rintro ⟨expression, same⟩
    exact keyword expression same.symm
  | some condition =>
    have something : filter.constraintCount ≠ 0 := by
      rw [ne_eq, counts, asks]
      exact Option.some_ne_none condition
    exact ⟨iff_of_true ⟨_, rfl⟩ (by omega), iff_of_false (keyword _) something⟩

end Filter

namespace Statement

/-! ### Statements with another filter -/

/-- The statement with this filter, if it is one that takes a filter. -/
def withFilter (filter : Option Filter) : Statement → Statement
  | .select table query => .select table { query with filter := filter }
  | .update table query => .update table { query with filter := filter }
  | other => other

/-- Filters whose clauses take the same steps are serialized alike. -/
theorem serialize_withFilter {filter other : Option Filter}
    (same : Filter.clauseSteps filter = Filter.clauseSteps other) (schema : Schema)
    (statement : Statement) (initial : Bindings) :
    (statement.withFilter filter).serialize schema initial =
      (statement.withFilter other).serialize schema initial := by
  have steps : (statement.withFilter filter).steps schema =
      (statement.withFilter other).steps schema := by
    cases statement with
    | select table query =>
      simp only [withFilter, Statement.steps, bodySteps, Select.steps, same]
      rfl
    | update table query =>
      simp only [withFilter, Statement.steps, bodySteps, Update.steps, same]
      rfl
    | _ => rfl
  rw [serialize_eq_emit, serialize_eq_emit, emit, emit, steps]

/-- Filters without a constraint are invisible, wherever they stand. Pruning a filter leaves none of
them in its branches, and a statement is serialized alike, in text and bindings, with the filter and
with the pruned one, and if the filter has no constraint at all, like without a filter. The clause
for a filter is there exactly if the filter counts a constraint, which is when it lists one. -/
theorem serialize_prune (schema : Schema) (initial : Bindings) (filter : Filter) :
    (∀ inner : Filter, inner.Within filter.prune → 0 < inner.constraintCount) ∧
    (∀ statement : Statement,
      (statement.withFilter (some filter)).serialize schema initial =
        (statement.withFilter (some filter.prune)).serialize schema initial) ∧
    (filter.constraintCount = 0 → ∀ statement : Statement,
      (statement.withFilter (some filter)).serialize schema initial =
          (statement.withFilter none).serialize schema initial ∧
        (statement.withFilter (some filter.prune)).serialize schema initial =
          (statement.withFilter none).serialize schema initial) ∧
    (∀ (table : String) (query : Select) (columns : String), table ≠ "" →
      query.projection.columns table = .ok columns →
      ∃ clause final, filter.HasClause clause ∧
        ((select table query).withFilter (some filter)).serialize schema initial =
          (.ok ("SELECT " ++ columns ++ " FROM " ++ table ++ clause ++ query.tail ++ ";"),
            final)) ∧
    (∀ (table : String) (query : Update), table ≠ "" → query.assignments.isEmpty = false →
      ∃ clause final, filter.HasClause clause ∧
        ((update table query).withFilter (some filter)).serialize schema initial =
          (.ok ("UPDATE " ++ table ++ " SET " ++ assignmentsText query ++ clause ++ query.tail ++
            ";"), final)) ∧
    (filter.isEmpty = true ↔ filter.constraintCount = 0) ∧
    (filter.constraintCount = 0 ↔ filter.constraints = []) ∧
    filter.constraintCount = filter.constraints.length := by
  have empty_iff : filter.isEmpty = true ↔ filter.constraintCount = 0 := by
    rw [filter.isEmpty_iff_constraints, filter.constraintCount_eq_zero_iff]
  have pruned (statement : Statement) := serialize_withFilter filter.clauseSteps_prune.symm schema
    statement initial
  refine ⟨fun inner within => ?_, pruned, fun none statement => ?_, ?_, ?_, empty_iff,
    filter.constraintCount_eq_zero_iff, filter.length_constraints.symm⟩
  · have asks := Filter.asks_of_within_prune within
    refine Nat.pos_of_ne_zero fun none => ?_
    rw [(inner.isEmpty_iff_constraints).mpr (inner.constraintCount_eq_zero_iff.mp none)] at asks
    cases asks
  · have absent := serialize_withFilter (Filter.clauseSteps_of_isEmpty (empty_iff.mpr none)) schema
      statement initial
    exact ⟨absent, (pruned statement).symm.trans absent⟩
  · intro table query columns named listed
    exact ⟨_, _, filter.hasClause _, serialize_select schema named
      { query with filter := some filter } listed initial⟩
  · intro table query named assigns
    exact ⟨_, _, filter.hasClause _, serialize_update schema named
      { query with filter := some filter } assigns initial⟩

/-- A filter with one constraint deep in one branch and none in the other. -/
def hollowFilter : Filter :=
  ⟨Dictionary.empty,
    [Filter.empty, Filter.ofAny [Filter.empty, ⟨Dictionary.ofList [("age", .int 3)], [], []⟩]],
    [Filter.ofAll [Filter.empty]]⟩

/-- Of the branches, only what leads to the constraint is left, and the select says the same. -/
theorem serialize_prune_hollow :
    hollowFilter.prune =
      Filter.ofAll [Filter.ofAny [⟨Dictionary.ofList [("age", .int 3)], [], []⟩]] ∧
    (select "User" { Select.empty with filter := some hollowFilter }).serialize
        ⟨Dictionary.empty⟩ Dictionary.empty =
      (select "User" { Select.empty with filter := some hollowFilter.prune }).serialize
        ⟨Dictionary.empty⟩ Dictionary.empty ∧
    "User" ≠ "" ∧ Projection.all.columns "User" = .ok "*" ∧
    ∃ clause final, hollowFilter.HasClause clause ∧
      (select "User" { Select.empty with filter := some hollowFilter }).serialize
          ⟨Dictionary.empty⟩ Dictionary.empty =
        (.ok ("SELECT * FROM User" ++ clause ++ ";"), final) := by
  have named : "User" ≠ "" := by decide
  have listed : Projection.all.columns "User" = .ok "*" := rfl
  obtain ⟨-, pruned, -, selected, -⟩ :=
    serialize_prune ⟨Dictionary.empty⟩ Dictionary.empty hollowFilter
  obtain ⟨clause, final, given, text⟩ := selected "User" Select.empty "*" named listed
  have tail : Select.empty.tail = "" := by decide
  rw [tail, String.append_empty] at text
  exact ⟨rfl, pruned (select "User" Select.empty), named, listed, clause, final, given, text⟩

end Statement

end DocQuery

/-
This file proves that a statement that cannot be serialized has not changed the bindings.

A serialization that binds values while it writes may be interrupted, and then what has been bound
stays bound. So statements are followed here step by step: a step writes a text, which may be
missing, or binds a value and writes its parameter. A run takes steps up to the first text that is
missing and keeps whatever it has done by then. That nothing has been bound at that point is due to
the order of the steps alone: no text that may be missing stands behind a step that binds, because
texts are missing only at the front of a statement and a filter is written without any.

The steps of a filter follow its tree. They are the steps of its condition, and a condition writes
and binds just what the statement says of it, so the run and the serialization are one.
-/

import Mathlib.Logic.Basic
import DocQuery.Proofs.FilterMeaning
import DocQuery.Statement.Compiled

namespace DocQuery

/-! ### Steps -/

/-- A step of the writing of a statement. -/
inductive Step where
  /-- Writes a text, unless it is missing. -/
  | text (content : Except Error String)
  /-- Binds a value under the name of its field and writes the field, a sign and the parameter. -/
  | assign (sign : String) (entry : String × Value)
  /-- Binds a compared value and writes the comparison with its parameter. -/
  | compare (constraint : Constraint)

/-- What has been written and bound so far. -/
structure Progress where
  text : String
  parameters : Parameters

namespace Step

/-- Writes a text that is there. -/
def word (content : String) : Step :=
  .text (.ok content)

/-- Takes one step. -/
def take : Step → Progress → Except Error Unit × Progress
  | .text (.error error), progress => (.error error, progress)
  | .text (.ok content), progress => (.ok (), ⟨progress.text ++ content, progress.parameters⟩)
  | .assign sign entry, progress =>
    (.ok (), ⟨progress.text ++ (entry.1 ++ (sign ++ ("$" ++ entry.1))),
      progress.parameters.bindAll [entry]⟩)
  | .compare constraint, progress =>
    let (name, parameters) := progress.parameters.bindConstraint constraint
    (.ok (), ⟨progress.text ++ (constraint.1 ++ (" = " ++ ("$" ++ name))), parameters⟩)

/-- Takes steps in order up to the first that fails. What has been done by then stays done. -/
def takeAll : List Step → Progress → Except Error Unit × Progress
  | [], progress => (.ok (), progress)
  | step :: rest, progress =>
    match step.take progress with
    | (.error error, progress) => (.error error, progress)
    | (.ok (), progress) => takeAll rest progress

/-- Sequences of steps in order, with a text between neighbours. -/
def joined (separator : String) (sequences : List (List Step)) : List Step :=
  [word separator].intercalate sequences

/-- Sequences of steps in parentheses, with a text between neighbours. -/
def group (separator : String) (members : List (List Step)) : List Step :=
  word "(" :: joined separator members ++ [word ")"]

/-- The parts of a level of a filter: one part stands for itself, several are joined. -/
def level : List (List Step) → List Step
  | [] => []
  | [single] => single
  | parts => group " AND " parts

end Step

/-! ### The steps of a statement -/

namespace Filter

mutual

/-- The steps of a filter. Whatever asks for nothing is passed over. -/
def steps : Filter → List Step
  | ⟨fields, all, any⟩ =>
    Step.level
      ((if fields.isEmpty then [] else
          [Step.group " AND " (fields.entries.map fun constraint => [.compare constraint])]) ++
        (if areEmpty all then [] else [Step.group " AND " (branchSteps all)]) ++
        if areEmpty any then [] else [Step.group " OR " (branchSteps any)])

/-- The steps of each filter of a branch that asks for anything. -/
def branchSteps : List Filter → List (List Step)
  | [] => []
  | filter :: rest =>
    if filter.isEmpty then branchSteps rest else filter.steps :: branchSteps rest

end

/-- The steps of a clause for a filter, if it asks for anything. -/
def clauseSteps (filter : Option Filter) : List Step :=
  match filter.filter fun filter => !filter.isEmpty with
  | none => []
  | some filter => .word " WHERE " :: filter.steps

end Filter

/-- The steps that bind values under the names of their fields. -/
def Step.assignments (sign : String) (entries : List (String × Value)) : List Step :=
  joined ", " (entries.map fun entry => [.assign sign entry])

/-- The steps of a select. -/
def Select.steps (table : String) (query : Select) : List Step :=
  .word "SELECT " :: .text (query.projection.columns table) ::
    ([.word (" FROM " ++ table)] ++ Filter.clauseSteps query.filter ++ [.word query.tail])

/-- The steps of an update, of which the first one looks at the assignments. -/
def Update.steps (table : String) (query : Update) : List Step :=
  .text (if query.assignments.isEmpty then
      .error (Failure.invalidStatement (.nothingAssigned table)) else .ok "UPDATE ") ::
    .word (table ++ " SET ") :: (Step.assignments " = " query.assignments.entries ++
      Filter.clauseSteps query.filter ++ [.word query.tail])

/-- The steps of a create. -/
def Create.steps (table : String) (query : Create) : List Step :=
  .word ("CREATE ONLY " ++ table ++ query.keyClause) ::
    if query.content.isEmpty then [.word " CONTENT \x7b\x7d"]
    else .word " CONTENT \x7b " :: Step.assignments ": " query.content.entries ++ [.word " \x7d"]

namespace Statement

/-- The steps of a statement once its table has a name. -/
def bodySteps (schema : Schema) : Statement → List Step
  | .defineTable table => [.text (schema.tableDefinition table)]
  | .defineField table field => [.text (schema.fieldDefinition table field)]
  | .defineIndex table field => [.text (schema.indexDefinition table field)]
  | .select table query => query.steps table
  | .update table query => query.steps table
  | .create table query => query.steps table

/-- The steps of a statement, of which the first one looks at the name of the table. -/
def steps (schema : Schema) (statement : Statement) : List Step :=
  .text (if statement.table = "" then .error (Failure.unsetName "table") else .ok "") ::
    statement.bodySteps schema

/-- The text that the steps of a statement write, or why there is none, and the bindings once they
have been taken or one of them has failed. -/
def emit (schema : Schema) (statement : Statement) (initial : Bindings) :
    Except Error String × Bindings :=
  let (outcome, progress) := Step.takeAll (statement.steps schema) ⟨"", .ofBindings initial⟩
  (outcome.map fun _ => progress.text ++ ";", progress.parameters.bindings)

end Statement

/-! ### Failing steps -/

namespace Step

/-- Whether the step is a text that is missing. -/
def fails : Step → Bool
  | .text (.error _) => true
  | _ => false

/-- Whether the step binds a value. -/
def binds : Step → Bool
  | .text _ => false
  | _ => true

/-- Whether no text that is missing stands behind a step that binds. -/
def FailsFirst (steps : List Step) : Prop :=
  steps.Pairwise fun earlier later => earlier.binds = true → later.fails = false

theorem take_ok_iff (step : Step) (progress : Progress) :
    (step.take progress).1 = .ok () ↔ step.fails = false := by
  cases step with
  | text content =>
    cases content with
    | error error => exact iff_of_false nofun Bool.noConfusion
    | ok content => exact iff_of_true rfl rfl
  | assign sign entry => exact iff_of_true rfl rfl
  | compare constraint => exact iff_of_true rfl rfl

/-- A step that does not bind leaves the parameters as they are. -/
theorem parameters_take {step : Step} (noBinding : step.binds = false) (progress : Progress) :
    (step.take progress).2.parameters = progress.parameters := by
  cases step with
  | text content => cases content <;> rfl
  | assign sign entry => cases noBinding
  | compare constraint => cases noBinding

/-- Steps are all taken exactly if none of them is a text that is missing. -/
theorem takeAll_ok_iff (steps : List Step) (progress : Progress) :
    (takeAll steps progress).1 = .ok () ↔ ∀ step ∈ steps, step.fails = false := by
  induction steps generalizing progress with
  | nil => exact iff_of_true rfl (List.forall_mem_nil _)
  | cons step rest inductionHypothesis =>
    rw [List.forall_mem_cons, ← take_ok_iff step progress, takeAll]
    rcases step.take progress with ⟨_ | ⟨⟩, next⟩
    · exact iff_of_false nofun fun both => by cases both.1
    · rw [inductionHypothesis, and_iff_right rfl]

/-- Steps without any that binds leave the parameters as they are. -/
theorem parameters_takeAll {steps : List Step} (noBinding : ∀ step ∈ steps, step.binds = false)
    (progress : Progress) : (takeAll steps progress).2.parameters = progress.parameters := by
  induction steps generalizing progress with
  | nil => rfl
  | cons step rest inductionHypothesis =>
    rw [List.forall_mem_cons] at noBinding
    have here := parameters_take noBinding.1 progress
    rw [takeAll]
    rcases answer : step.take progress with ⟨_ | ⟨⟩, next⟩
    · rw [answer] at here
      exact here
    · rw [answer] at here
      exact (inductionHypothesis noBinding.2 next).trans here

/-- Steps that fail first leave the parameters as they are if they fail. -/
theorem FailsFirst.parameters_of_error {steps : List Step} (ordered : FailsFirst steps)
    {progress : Progress} {error : Error} (failed : (takeAll steps progress).1 = .error error) :
    (takeAll steps progress).2.parameters = progress.parameters := by
  induction steps generalizing progress with
  | nil => cases failed
  | cons step rest inductionHypothesis =>
    obtain ⟨behind, later⟩ := List.pairwise_cons.mp ordered
    cases binding : step.binds with
    | false =>
      have here := parameters_take binding progress
      rw [takeAll] at failed ⊢
      rcases answer : step.take progress with ⟨_ | ⟨⟩, next⟩
      · rw [answer] at here
        exact here
      · rw [answer] at here failed
        exact (inductionHypothesis later failed).trans here
    | true =>
      -- Behind a step that binds there is none that fails, so the steps are all taken.
      have none : ∀ other ∈ step :: rest, other.fails = false := by
        refine List.forall_mem_cons.mpr ⟨?_, fun other member => behind other member binding⟩
        cases step with
        | text content => cases binding
        | assign sign entry => rfl
        | compare constraint => rfl
      rw [(takeAll_ok_iff _ progress).mpr none] at failed
      cases failed

theorem FailsFirst.of_none {steps : List Step} (none : ∀ step ∈ steps, step.fails = false) :
    FailsFirst steps :=
  List.pairwise_of_forall_mem_list fun _ _ step member _ => none step member

/-- A text, be it missing or not, may stand in front of all other steps. -/
theorem FailsFirst.behind {steps : List Step} (content : Except Error String)
    (ordered : FailsFirst steps) : FailsFirst (.text content :: steps) :=
  List.pairwise_cons.mpr ⟨fun _ _ => nofun, ordered⟩

end Step

/-! ### Steps that are all taken -/

namespace Step

theorem takeAll_append {steps : List Step} {progress next : Progress}
    (taken : takeAll steps progress = (.ok (), next)) (later : List Step) :
    takeAll (steps ++ later) progress = takeAll later next := by
  induction steps generalizing progress with
  | nil =>
    cases taken
    rfl
  | cons step rest inductionHypothesis =>
    rw [List.cons_append, takeAll]
    rw [takeAll] at taken
    rcases answer : step.take progress with ⟨_ | ⟨⟩, middle⟩
    · rw [answer] at taken
      cases taken
    · rw [answer] at taken
      exact inductionHypothesis taken

/-- From these parameters, the steps are all taken, write the text and lead to other parameters,
whatever has been written before. -/
def Takes (steps : List Step) (parameters : Parameters) (text : String) (after : Parameters) :
    Prop :=
  ∀ before, takeAll steps ⟨before, parameters⟩ = (.ok (), ⟨before ++ text, after⟩)

namespace Takes

variable {parameters after last : Parameters} {steps later : List Step} {text laterText : String}

theorem nil (parameters : Parameters) : Takes [] parameters "" parameters := by
  intro before
  rw [takeAll, String.append_empty]

theorem word (content : String) (parameters : Parameters) :
    Takes [.word content] parameters content parameters :=
  fun _ => rfl

/-- Steps go on from what the steps before them have written and bound. -/
theorem append (first : Takes steps parameters text after)
    (second : Takes later after laterText last) :
    Takes (steps ++ later) parameters (text ++ laterText) last := by
  intro before
  rw [takeAll_append (first before), second, String.append_assoc]

theorem fails_eq_false (takes : Takes steps parameters text after) :
    ∀ step ∈ steps, step.fails = false := by
  refine (takeAll_ok_iff steps ⟨"", parameters⟩).mp ?_
  rw [takes]

/-- A sequence in front of others with the separator between them. -/
theorem joined_cons {separator : String} {next : List Step} {rest : List (List Step)}
    {pieces nextPieces : List Piece} {restPieces : List (List Piece)}
    (first : Takes steps parameters (Piece.writeAll pieces) after)
    (second : Takes (joined separator (next :: rest)) after
      (Piece.writeAll (Piece.joined separator (nextPieces :: restPieces))) last) :
    Takes (joined separator (steps :: next :: rest)) parameters
      (Piece.writeAll (Piece.joined separator (pieces :: nextPieces :: restPieces))) last := by
  have text : Piece.writeAll (Piece.joined separator (pieces :: nextPieces :: restPieces)) =
      Piece.writeAll pieces ++
        (separator ++ Piece.writeAll (Piece.joined separator (nextPieces :: restPieces))) := by
    simp only [Piece.joined, List.intercalate_cons_cons, Piece.writeAll_append, Piece.writeAll,
      Piece.write, String.append_empty, String.append_assoc]
  rw [text, joined, List.intercalate_cons_cons, List.append_assoc]
  exact first.append ((word separator after).append second)

/-- The pieces of a field, a sign and its parameter. -/
def assignmentPieces (sign field : String) : List Piece :=
  [.text field, .text sign, .parameter field]

/-- Steps that bind values write the fields with their parameters, and bind the values in order. -/
theorem assignments (sign : String) (entries : List (String × Value)) (parameters : Parameters) :
    Takes (Step.assignments sign entries) parameters
      (Piece.writeAll (Piece.joined ", " ((Entries.names entries).map (assignmentPieces sign))))
      (parameters.bindAll entries) := by
  induction entries generalizing parameters with
  | nil => exact nil parameters
  | cons entry rest inductionHypothesis =>
    have here : Takes [.assign sign entry] parameters
        (Piece.writeAll (assignmentPieces sign entry.1)) (parameters.bindAll [entry]) := by
      intro before
      simp only [takeAll, take, assignmentPieces, Piece.writeAll, Piece.write, String.append_empty]
    cases rest with
    | nil => exact here
    | cons next others => exact here.joined_cons (inductionHypothesis _)

end Takes

end Step

/-! ### The steps of a filter are those of its condition -/

namespace Condition

mutual

/-- The steps of a condition. -/
def steps : Condition Constraint → List Step
  | .compare constraint => [.compare constraint]
  | .group connective members => Step.group connective.separator (stepsOf members)

/-- The steps of conditions, each for itself. -/
def stepsOf : List (Condition Constraint) → List (List Step)
  | [] => []
  | member :: rest => member.steps :: stepsOf rest

end

theorem stepsOf_append (left right : List (Condition Constraint)) :
    stepsOf (left ++ right) = stepsOf left ++ stepsOf right := by
  induction left with
  | nil => rfl
  | cons member rest inductionHypothesis =>
    rw [List.cons_append, stepsOf, stepsOf, inductionHypothesis, List.cons_append]

theorem stepsOf_map_compare (constraints : List Constraint) :
    stepsOf (constraints.map .compare) =
      constraints.map fun constraint => [.compare constraint] := by
  induction constraints with
  | nil => rfl
  | cons constraint rest inductionHypothesis =>
    rw [List.map_cons, stepsOf, inductionHypothesis, steps, List.map_cons]

theorem stepsOf_part (connective : Connective) (members : List (Condition Constraint)) :
    stepsOf (part connective members) =
      if members.isEmpty then [] else [Step.group connective.separator (stepsOf members)] := by
  rw [part]
  split <;> rfl

theorem level_stepsOf (parts : List (Condition Constraint)) :
    Step.level (stepsOf parts) = ((ofParts parts).map steps).getD [] := by
  match parts with
  | [] => rfl
  | [single] => rfl
  | first :: second :: rest => rfl

mutual

/-- The steps of a condition write its pieces and bind what it compares. -/
theorem takes_steps : (condition : Condition Constraint) → (parameters : Parameters) →
    Step.Takes condition.steps parameters
      (Piece.writeAll (condition.bind parameters).1.pieces) (condition.bind parameters).2
  | .compare constraint, parameters => by
    intro before
    simp only [steps, bind, pieces, Step.takeAll, Step.take, Piece.writeAll, Piece.write,
      String.append_empty]
  | .group connective members, parameters => by
    have inner := takes_stepsOf connective.separator members parameters
    have text : Piece.writeAll ((group connective members).bind parameters).1.pieces =
        "(" ++ Piece.writeAll (Piece.joined connective.separator
          (piecesOf (bindMembers members parameters).1)) ++ ")" := by
      simp only [bind, pieces, Piece.writeAll, Piece.write, List.cons_append,
        Piece.writeAll_append, String.append_empty, String.append_assoc]
    rw [text]
    exact ((Step.Takes.word "(" parameters).append inner).append (.word ")" _)

theorem takes_stepsOf (separator : String) : (members : List (Condition Constraint)) →
    (parameters : Parameters) →
    Step.Takes (Step.joined separator (stepsOf members)) parameters
      (Piece.writeAll (Piece.joined separator (piecesOf (bindMembers members parameters).1)))
      (bindMembers members parameters).2
  | [], parameters => Step.Takes.nil parameters
  | [member], parameters => by
    have here := takes_steps member parameters
    simp only [bindMembers, stepsOf, piecesOf, Step.joined, Piece.joined,
      List.intercalate_singleton]
    exact here
  | member :: next :: rest, parameters =>
    (takes_steps member parameters).joined_cons
      (takes_stepsOf separator (next :: rest) (member.bind parameters).2)

end

end Condition

namespace Filter

mutual

/-- The steps that follow the tree of a filter are those of its condition. -/
theorem steps_eq : (filter : Filter) →
    filter.steps = (filter.condition?.map Condition.steps).getD []
  | ⟨fields, all, any⟩ => by
    rw [steps, condition?, ← Condition.level_stepsOf, Condition.stepsOf_append,
      Condition.stepsOf_append, Condition.stepsOf_part, Condition.stepsOf_part,
      Condition.stepsOf_part, List.isEmpty_map, isEmpty_conditions all, isEmpty_conditions any,
      Condition.stepsOf_map_compare, branchSteps_eq all, branchSteps_eq any]
    rfl

theorem branchSteps_eq : (filters : List Filter) →
    branchSteps filters = Condition.stepsOf (conditions filters)
  | [] => rfl
  | filter :: rest => by
    have here := steps_eq filter
    rw [branchSteps, conditions, Condition.stepsOf_append, branchSteps_eq rest, here,
      ← isNone_condition? filter]
    cases filter.condition? <;> rfl

end

/-- The steps of a clause for a filter write and bind what the clause says. -/
theorem takes_clauseSteps (filter : Option Filter) (parameters : Parameters) :
    Step.Takes (clauseSteps filter) parameters
      (Piece.writeAll (clause filter parameters).1) (clause filter parameters).2 := by
  cases filter with
  | none => exact .nil parameters
  | some filter =>
    have empty := isNone_condition? filter
    have steps := steps_eq filter
    rw [clause, Option.bind_some, clauseSteps]
    -- A filter is passed over exactly if it has no condition.
    cases asks : filter.condition? with
    | none =>
      rw [asks] at empty
      rw [Option.filter_some, ← empty]
      exact .nil parameters
    | some condition =>
      rw [asks] at empty steps
      rw [Option.filter_some, ← empty]
      show Step.Takes (.word " WHERE " :: filter.steps) parameters _ _
      rw [steps]
      exact (Step.Takes.word " WHERE " parameters).append (condition.takes_steps parameters)

/-- The steps of a filter are all taken, whatever its shape and whatever has been done before. -/
theorem takeAll_steps (filter : Filter) (progress : Progress) :
    (Step.takeAll filter.steps progress).1 = .ok () := by
  rw [steps_eq filter]
  cases filter.condition? with
  | none => rfl
  | some condition =>
    have taken := condition.takes_steps progress.parameters progress.text
    exact congrArg Prod.fst taken

end Filter

/-! ### The steps of a statement are its serialization -/

namespace Step

/-- The steps do what a writing says: they write its pieces and lead to its parameters, or fail with
its error and leave the parameters as they were. -/
inductive Follow (steps : List Step) (parameters : Parameters) : Writing → Prop
  | taken {pieces : List Piece} {after : Parameters}
      (takes : Takes steps parameters (Piece.writeAll pieces) after) :
      Follow steps parameters (.ok pieces, after)
  | failed {error : Error} (fails : ∀ before, ∃ written,
      takeAll steps ⟨before, parameters⟩ = (.error error, ⟨written, parameters⟩)) :
      Follow steps parameters (.error error, parameters)

/-- A definition is written in one step. -/
theorem follow_definition (definition : Except Error String) (parameters : Parameters) :
    Follow [.text definition] parameters (Statement.ofDefinition definition parameters) := by
  cases definition with
  | error error => exact .failed fun before => ⟨before, rfl⟩
  | ok text =>
    have written : Piece.writeAll [.text text] = text := String.append_empty
    refine .taken ?_
    rw [written]
    exact .word text parameters

end Step

theorem Select.follow_steps (table : String) (query : Select) (parameters : Parameters) :
    Step.Follow (query.steps table) parameters (query.write table parameters) := by
  rw [write, steps]
  cases query.projection.columns table with
  | error error => exact .failed fun before => ⟨before ++ "SELECT ", rfl⟩
  | ok columns =>
    refine .taken ?_
    have front := (Step.Takes.word "SELECT " parameters).append
      ((Step.Takes.word columns parameters).append (.word (" FROM " ++ table) parameters))
    have whole := front.append ((Filter.takes_clauseSteps query.filter parameters).append
      (.word query.tail _))
    simp only [List.cons_append, Piece.writeAll, Piece.write, Piece.writeAll_append,
      String.append_empty, String.append_assoc] at whole ⊢
    exact whole

theorem Update.follow_steps (table : String) (query : Update) (parameters : Parameters) :
    Step.Follow (query.steps table) parameters (query.write table parameters) := by
  rw [write, steps]
  cases query.assignments.isEmpty with
  | true => exact .failed fun before => ⟨before, rfl⟩
  | false =>
    refine .taken ?_
    have front := (Step.Takes.word "UPDATE " parameters).append
      (.word (table ++ " SET ") parameters)
    have assigned := Step.Takes.assignments " = " query.assignments.entries parameters
    have whole := front.append ((assigned.append (Filter.takes_clauseSteps query.filter _)).append
      (.word query.tail _))
    simp only [List.cons_append, Piece.writeAll, Piece.write, Piece.writeAll_append,
      String.append_empty, String.append_assoc] at whole ⊢
    exact whole

theorem Create.follow_steps (table : String) (query : Create) (parameters : Parameters) :
    Step.Follow (query.steps table) parameters (query.write table parameters) := by
  have start := Step.Takes.word ("CREATE ONLY " ++ table ++ query.keyClause) parameters
  rw [write, steps]
  cases query.content.isEmpty with
  | true =>
    refine .taken ?_
    have whole := start.append (.word " CONTENT \x7b\x7d" parameters)
    simp only [Piece.writeAll, Piece.write, String.append_empty]
    exact whole
  | false =>
    refine .taken ?_
    have stored := Step.Takes.assignments ": " query.content.entries parameters
    have whole := start.append ((Step.Takes.word " CONTENT \x7b " parameters).append
      (stored.append (.word " \x7d" _)))
    simp only [List.cons_append, Piece.writeAll, Piece.write, Piece.writeAll_append,
      String.append_empty, String.append_assoc] at whole ⊢
    exact whole

namespace Statement

theorem follow_bodySteps (schema : Schema) {statement : Statement} (named : statement.table ≠ "")
    (parameters : Parameters) :
    Step.Follow (statement.bodySteps schema) parameters (statement.write schema parameters) := by
  rw [write.eq_def, if_neg named]
  cases statement with
  | defineTable table => exact Step.follow_definition _ _
  | defineField table field => exact Step.follow_definition _ _
  | defineIndex table field => exact Step.follow_definition _ _
  | select table query => exact query.follow_steps table parameters
  | update table query => exact query.follow_steps table parameters
  | create table query => exact query.follow_steps table parameters

/-- Serializing a statement is taking its steps. -/
theorem serialize_eq_emit (schema : Schema) (statement : Statement) (initial : Bindings) :
    statement.serialize schema initial = statement.emit schema initial := by
  rw [serialize, emit, steps]
  by_cases unnamed : statement.table = ""
  · rw [write.eq_def, if_pos unnamed, if_pos unnamed]
    rfl
  · have follow := statement.follow_bodySteps schema unnamed (.ofBindings initial)
    rw [if_neg unnamed, Step.takeAll, Step.take]
    dsimp only
    generalize statement.write schema (.ofBindings initial) = writing at follow ⊢
    cases follow with
    | taken takes =>
      rw [takes, Except.map, Except.map, Piece.finish_eq]
      simp only [String.empty_append]
    | failed fails =>
      obtain ⟨written, failed⟩ := fails ("" ++ "")
      rw [failed]
      rfl

end Statement

/-! ### The order of the steps -/

theorem Step.fails_assignments (sign : String) (entries : List (String × Value)) :
    ∀ step ∈ assignments sign entries, step.fails = false :=
  (Takes.assignments sign entries (.ofBindings Dictionary.empty)).fails_eq_false

theorem Filter.fails_clauseSteps (filter : Option Filter) :
    ∀ step ∈ clauseSteps filter, step.fails = false :=
  (takes_clauseSteps filter (.ofBindings Dictionary.empty)).fails_eq_false

/-- Behind the first part of a query, no text is missing. -/
theorem Filter.fails_behind (filter : Option Filter) {before : List Step}
    (none : ∀ step ∈ before, step.fails = false) (tail : String) :
    ∀ step ∈ before ++ clauseSteps filter ++ [.word tail], step.fails = false := by
  rw [List.forall_mem_append, List.forall_mem_append, List.forall_mem_singleton]
  exact ⟨⟨none, fails_clauseSteps filter⟩, rfl⟩

theorem Projection.fails_columns_iff (table : String) (projection : Projection) :
    (Step.text (projection.columns table)).fails = false ↔ projection ≠ .only [] := by
  cases projection with
  | all => exact iff_of_true rfl nofun
  | only fields =>
    cases fields with
    | nil => exact iff_of_false Bool.noConfusion fun different => different rfl
    | cons field rest => exact iff_of_true rfl nofun
  | without fields => cases fields <;> exact iff_of_true rfl nofun

/-- Only the columns of a select may be missing. -/
theorem Select.fails_steps (table : String) (query : Select) :
    Step.FailsFirst (query.steps table) ∧
      ((∀ step ∈ query.steps table, step.fails = false) ↔ query.projection ≠ .only []) := by
  -- The columns are looked at before the filter, and behind them every text is there.
  have later : ∀ step ∈ [.word (" FROM " ++ table)] ++ Filter.clauseSteps query.filter ++
      [.word query.tail], step.fails = false :=
    Filter.fails_behind query.filter (List.forall_mem_singleton.mpr rfl) query.tail
  refine ⟨.behind _ (.behind _ (.of_none later)), ?_⟩
  rw [steps, List.forall_mem_cons, List.forall_mem_cons,
    query.projection.fails_columns_iff table]
  exact ⟨fun all => all.2.1, fun wanted => ⟨rfl, wanted, later⟩⟩

/-- Only the front of an update may be missing. -/
theorem Update.fails_steps (table : String) (query : Update) :
    Step.FailsFirst (query.steps table) ∧
      ((∀ step ∈ query.steps table, step.fails = false) ↔ query.assignments.isEmpty = false) := by
  have later := Filter.fails_behind query.filter
    (Step.fails_assignments " = " query.assignments.entries) query.tail
  refine ⟨.behind _ (.behind _ (.of_none later)), ?_⟩
  rw [steps, List.forall_mem_cons, List.forall_mem_cons]
  cases query.assignments.isEmpty with
  | true => exact iff_of_false (fun all => Bool.noConfusion all.1) Bool.noConfusion
  | false => exact iff_of_true ⟨rfl, rfl, later⟩ rfl

/-- No text of a create is missing. -/
theorem Create.fails_steps (table : String) (query : Create) :
    ∀ step ∈ query.steps table, step.fails = false := by
  rw [steps, List.forall_mem_cons]
  refine ⟨rfl, ?_⟩
  split
  · exact List.forall_mem_singleton.mpr rfl
  · rw [List.cons_append, List.forall_mem_cons, List.forall_mem_append, List.forall_mem_singleton]
    exact ⟨rfl, Step.fails_assignments _ _, rfl⟩

namespace Statement

/-- Only texts at the front of a statement may be missing, and nothing is bound there. -/
theorem steps_failsFirst (schema : Schema) (statement : Statement) :
    Step.FailsFirst (statement.steps schema) := by
  refine .behind _ ?_
  cases statement with
  | defineTable table => exact .behind _ (.of_none (List.forall_mem_nil _))
  | defineField table field => exact .behind _ (.of_none (List.forall_mem_nil _))
  | defineIndex table field => exact .behind _ (.of_none (List.forall_mem_nil _))
  | select table query => exact (query.fails_steps table).1
  | update table query => exact (query.fails_steps table).1
  | create table query => exact .of_none (query.fails_steps table)

/-- The steps of a definition only write. -/
theorem binds_steps (schema : Schema) {statement : Statement}
    (defines : statement.isDefinition = true) :
    ∀ step ∈ statement.steps schema, step.binds = false := by
  have onlyTexts (check definition : Except Error String) :
      ∀ step ∈ [Step.text check, .text definition], step.binds = false :=
    List.forall_mem_cons.mpr ⟨rfl, List.forall_mem_singleton.mpr rfl⟩
  cases statement with
  | defineTable table => exact onlyTexts _ _
  | defineField table field => exact onlyTexts _ _
  | defineIndex table field => exact onlyTexts _ _
  | select table query => cases defines
  | update table query => cases defines
  | create table query => cases defines

/-- Serializing a statement fails as its steps do. -/
theorem serialize_eq_error_iff (schema : Schema) (statement : Statement) (initial : Bindings)
    (error : Error) : (statement.serialize schema initial).1 = .error error ↔
      (Step.takeAll (statement.steps schema) ⟨"", .ofBindings initial⟩).1 = .error error := by
  rw [serialize_eq_emit, emit]
  rcases Step.takeAll (statement.steps schema) ⟨"", .ofBindings initial⟩ with ⟨_ | _, progress⟩
  · simp only [Except.map, Except.error.injEq]
  · exact iff_of_false nofun nofun

/-- A statement fails exactly if its table has no name or another text of it is missing. -/
theorem fails_iff (schema : Schema) (statement : Statement) (initial : Bindings) :
    (∃ error, (statement.serialize schema initial).1 = .error error) ↔
      statement.table = "" ∨ ¬ ∀ step ∈ statement.bodySteps schema, step.fails = false := by
  have fails := not_congr (Step.takeAll_ok_iff (statement.steps schema) ⟨"", .ofBindings initial⟩)
  have check : (Step.text (if statement.table = "" then .error (Error.ofFailure
      (Failure.unsetName "table")) else .ok "")).fails = false ↔ statement.table ≠ "" := by
    split
    · rename_i unnamed
      exact iff_of_false Bool.noConfusion fun named => named unnamed
    · rename_i named
      exact iff_of_true rfl named
  rw [steps, List.forall_mem_cons, ← steps, check, not_and_or, not_ne_iff] at fails
  simp only [serialize_eq_error_iff]
  rw [← fails]
  cases (Step.takeAll (statement.steps schema) ⟨"", .ofBindings initial⟩).1 with
  | error error => exact iff_of_true ⟨error, rfl⟩ nofun
  | ok done => exact iff_of_false nofun fun failed => failed rfl

/-- A statement that cannot be serialized leaves the bindings as they were. -/
theorem bindings_of_error {schema : Schema} {statement : Statement} {initial : Bindings}
    {error : Error} (failed : (statement.serialize schema initial).1 = .error error) :
    (statement.serialize schema initial).2 = initial := by
  have kept := (statement.steps_failsFirst schema).parameters_of_error
    ((serialize_eq_error_iff schema statement initial error).mp failed)
  rw [serialize_eq_emit]
  exact congrArg Parameters.bindings kept

/-- A statement that cannot be serialized has not changed the bindings, and a definition never does.
Serializing is taking steps that write and bind, and what is bound when a step fails stays bound;
the steps of a filter, whatever its shape, never fail, and so a query fails only at its front: if
its table has no name, if a select asks for no fields or if an update assigns nothing. -/
theorem failure_keeps_bindings (schema : Schema) (initial : Bindings) :
    (∀ statement : Statement,
      statement.serialize schema initial = statement.emit schema initial ∧
      (∀ error, (statement.serialize schema initial).1 = .error error →
        (statement.serialize schema initial).2 = initial) ∧
      (statement.isDefinition = true → (statement.serialize schema initial).2 = initial)) ∧
    (∀ (table : String) (query : Select),
      (∃ error, ((select table query).serialize schema initial).1 = .error error) ↔
        table = "" ∨ query.projection = .only []) ∧
    (∀ (table : String) (query : Update),
      (∃ error, ((update table query).serialize schema initial).1 = .error error) ↔
        table = "" ∨ query.assignments.isEmpty = true) ∧
    (∀ (table : String) (query : Create),
      (∃ error, ((create table query).serialize schema initial).1 = .error error) ↔
        table = "") ∧
    ∀ (filter : Filter) (progress : Progress),
      (Step.takeAll filter.steps progress).1 = .ok () := by
  refine ⟨fun statement => ⟨serialize_eq_emit schema statement initial,
      fun _ => bindings_of_error, fun defines => ?_⟩,
    fun table query => ?_, fun table query => ?_, fun table query => ?_, Filter.takeAll_steps⟩
  · have kept := Step.parameters_takeAll (binds_steps schema defines) ⟨"", .ofBindings initial⟩
    rw [serialize_eq_emit]
    exact congrArg Parameters.bindings kept
  · rw [fails_iff, bodySteps, (query.fails_steps table).2, not_not]
    rfl
  · rw [fails_iff, bodySteps, (query.fails_steps table).2, Bool.not_eq_false]
    rfl
  · rw [fails_iff, bodySteps]
    exact or_iff_left fun failing => failing (query.fails_steps table)

/-- An update that compares two fields but assigns nothing. -/
def unassigning : Statement :=
  .update "User" { Update.empty with
    filter := some ⟨Dictionary.ofList [("age", .int 1)], [],
      [⟨Dictionary.ofList [("name", .null)], [], []⟩]⟩ }

/-- The update has not bound anything when it fails. -/
theorem failure_keeps_bindings_unassigning :
    (unassigning.serialize ⟨Dictionary.empty⟩ (Dictionary.ofList [("age_1", .null)])).1 =
      .error (Error.ofFailure (Failure.invalidStatement (.nothingAssigned "User"))) ∧
    (unassigning.serialize ⟨Dictionary.empty⟩ (Dictionary.ofList [("age_1", .null)])).2 =
      Dictionary.ofList [("age_1", .null)] := by
  have failed :
      (unassigning.serialize ⟨Dictionary.empty⟩ (Dictionary.ofList [("age_1", .null)])).1 =
        .error (Error.ofFailure (Failure.invalidStatement (.nothingAssigned "User"))) := rfl
  obtain ⟨each, -⟩ :=
    failure_keeps_bindings ⟨Dictionary.empty⟩ (Dictionary.ofList [("age_1", .null)])
  exact ⟨failed, (each unassigning).2.1 _ failed⟩

end Statement

end DocQuery

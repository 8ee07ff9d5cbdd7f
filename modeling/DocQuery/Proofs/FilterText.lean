/-
This file proves that the text of a filter says what the filter means.

The text behind ` WHERE ` is one boolean expression in parentheses. It reads back as one formula,
wherever it stands and whatever follows it, and as no other. Evaluated with the bindings of the
finished statement, that formula holds exactly for the records that the filter asks for.

The proof follows the binding of a condition. Each comparison has the value of its constraint
under its parameter as soon as it is bound, and keeps it, since later comparisons only add
entries at the end.
-/

import DocQuery.Proofs.Formula
import DocQuery.Proofs.Numbering
import DocQuery.Proofs.StatementText

namespace DocQuery

/-! ### Names -/

/-- The name of a comparison of a plain field is plain. -/
theorem Parameters.isBare_numbered {field : String} (plain : RecordKey.isBare field.toList = true)
    (number : Nat) : RecordKey.isBare (numbered field number).toList = true := by
  have digits : ((Nat.repr number).toList).all RecordKey.continuesBare = true := by
    rw [Nat.repr_eq_ofList_toDigits, String.toList_ofList, List.all_eq_true]
    intro digit member
    have isDigit : digit.isDigit = true :=
      Nat.isDigit_of_mem_toDigits (by decide) (by decide) member
    simp [RecordKey.continuesBare, Char.isAlphanum, isDigit]
  cases shape : field.toList with
  | nil =>
    rw [shape] at plain
    cases plain
  | cons first rest =>
    rw [shape, RecordKey.isBare, Bool.and_eq_true] at plain
    have characters : (numbered field number).toList =
        first :: (rest ++ '_' :: (Nat.repr number).toList) := by
      simp [numbered, shape]
    have underscore : RecordKey.continuesBare '_' = true := by decide
    rw [characters, RecordKey.isBare, plain.1, List.all_append, plain.2, List.all_cons, underscore,
      digits]
    rfl

/-! ### What comparisons keep -/

/-- Comparisons leave what was bound before them where it is. -/
theorem Parameters.prefix_bindConstraints (parameters : Parameters)
    (constraints : List Constraint) :
    parameters.bindings.entries <+: (parameters.bindConstraints constraints).bindings.entries := by
  obtain ⟨numbers, -, entries⟩ :=
    (GrownFrom.refl parameters).exists_numbering constraints
  exact ⟨_, entries.symm⟩

/-! ### The formula of a condition -/

/-- A formula states a condition: it is the text of the condition as bound from given parameters,
and it means the same for all bindings that keep what the condition has bound. -/
structure Formula.States (formula : Formula) (condition : Condition Constraint)
    (parameters : Parameters) : Prop where
  isGroup_eq : formula.isGroup = condition.isGroup
  characters_eq :
    formula.characters = (Piece.writeAll (condition.bind parameters).1.pieces).toList
  evaluate?_eq : ∀ (final : Bindings),
    (condition.bind parameters).2.bindings.entries <+: final.entries →
      ∀ holds, formula.evaluate? final holds = some (condition.eval holds)

/-- Formulas state conditions that are bound one after the other. -/
structure Formula.StatesAll (formulas : List Formula) (members : List (Condition Constraint))
    (parameters : Parameters) : Prop where
  characters_eq : formulas.map Formula.characters =
    (Condition.piecesOf (Condition.bindMembers members parameters).1).map
      fun pieces => (Piece.writeAll pieces).toList
  evaluateAll?_eq : ∀ (final : Bindings),
    (Condition.bindMembers members parameters).2.bindings.entries <+: final.entries →
      ∀ holds, Formula.evaluateAll? final holds formulas = some (Condition.evals holds members)

namespace Condition

/-- A bound comparison states that the field has the value of the constraint. -/
theorem states_compare (constraint : Constraint) (parameters : Parameters)
    (plain : RecordKey.isBare constraint.1.toList = true) :
    Formula.States
      (.compare ⟨constraint.1, plain⟩
        ⟨(parameters.bindConstraint constraint).1, Parameters.isBare_numbered plain _⟩)
      (.compare constraint) parameters where
  isGroup_eq := rfl
  characters_eq := by
    simp [Formula.characters, bind, pieces, Piece.writeAll, Piece.write]
  evaluate?_eq := by
    intro final kept holds
    rw [bind, Parameters.entries_bindConstraint] at kept
    have found : final.find? (parameters.bindConstraint constraint).1 = some constraint.2 :=
      Entries.find?_of_mem final.distinct (kept.subset (by simp))
    rw [Formula.evaluate?, found, eval]
    rfl

theorem characters_joined (connective : Connective) {first : Formula} {firstPieces : List Piece}
    (firstText : first.characters = (Piece.writeAll firstPieces).toList)
    {others : List Formula} {otherPieces : List (List Piece)}
    (otherTexts : others.map Formula.characters =
      otherPieces.map fun pieces => (Piece.writeAll pieces).toList) :
    first.characters ++ Formula.laterCharacters connective others =
      (Piece.writeAll (Piece.joined connective.separator (firstPieces :: otherPieces))).toList := by
  induction others generalizing first firstPieces otherPieces with
  | nil =>
    have none : otherPieces = [] := by simpa using otherTexts.symm
    rw [none, Piece.joined, List.intercalate_singleton, firstText, Formula.laterCharacters,
      List.append_nil]
  | cons second rest inductionHypothesis =>
    cases otherPieces with
    | nil => simp at otherTexts
    | cons secondPieces restPieces =>
      rw [List.map_cons, List.map_cons, List.cons_eq_cons] at otherTexts
      have later := inductionHypothesis otherTexts.1 otherTexts.2
      rw [Piece.joined] at later
      rw [Piece.joined, List.intercalate_cons_cons, Piece.writeAll_append, Piece.writeAll_append,
        String.toList_append, String.toList_append, ← later, ← firstText,
        Formula.laterCharacters]
      simp [Piece.writeAll, Piece.write]

/-- The group of formulas states the group of the conditions that they state. -/
theorem states_group (connective : Connective) (parameters : Parameters)
    {first : Formula} {others : List Formula} {members : List (Condition Constraint)}
    (statedAll : Formula.StatesAll (first :: others) members parameters) :
    Formula.States (Formula.ofMembers connective first others) (.group connective members)
      parameters where
  isGroup_eq := by
    cases others <;> rfl
  characters_eq := by
    have texts := statedAll.characters_eq
    rw [bind, pieces]
    cases shape : piecesOf (bindMembers members parameters).1 with
    | nil => simp [shape] at texts
    | cons firstPieces otherPieces =>
      rw [shape, List.map_cons, List.map_cons, List.cons_eq_cons] at texts
      rw [Formula.characters_ofMembers, characters_joined connective texts.1 texts.2]
      simp [Piece.writeAll, Piece.write]
  evaluate?_eq := by
    intro final kept holds
    rw [bind] at kept
    have values := statedAll.evaluateAll?_eq final kept holds
    rw [Formula.evaluateAll?] at values
    cases firstValue : first.evaluate? final holds with
    | none => simp [firstValue] at values
    | some value =>
      cases otherValues : Formula.evaluateAll? final holds others with
      | none => simp [firstValue, otherValues] at values
      | some rest =>
        simp only [firstValue, otherValues, Option.some_inj] at values
        rw [Formula.evaluate?_ofMembers firstValue otherValues, values, eval]

mutual

/-- Every condition without an empty group over plain fields has a formula. -/
theorem exists_states : (condition : Condition Constraint) → (parameters : Parameters) →
    condition.isProper = true →
    (∀ constraint ∈ condition.leaves, RecordKey.isBare constraint.1.toList = true) →
    ∃ formula : Formula, formula.States condition parameters
  | .compare constraint, parameters, _, plain =>
    ⟨_, states_compare constraint parameters (plain constraint (by simp [leaves]))⟩
  | .group connective members, parameters, proper, plain => by
    rw [isProper, Bool.and_eq_true] at proper
    rw [leaves] at plain
    obtain ⟨formulas, statedAll⟩ := exists_statesAll members parameters proper.2 plain
    cases formulas with
    | nil =>
      have texts := statedAll.characters_eq
      cases members with
      | nil => simp at proper
      | cons member rest => simp [bindMembers, piecesOf] at texts
    | cons first others => exact ⟨_, states_group connective parameters statedAll⟩

theorem exists_statesAll : (members : List (Condition Constraint)) → (parameters : Parameters) →
    areProper members = true →
    (∀ constraint ∈ leavesOf members, RecordKey.isBare constraint.1.toList = true) →
    ∃ formulas : List Formula, Formula.StatesAll formulas members parameters
  | [], _, _, _ => ⟨[], rfl, fun _ _ _ => rfl⟩
  | member :: rest, parameters, proper, plain => by
    rw [areProper, Bool.and_eq_true] at proper
    rw [leavesOf, List.forall_mem_append] at plain
    obtain ⟨formula, stated⟩ := exists_states member parameters proper.1 plain.1
    obtain ⟨formulas, statedAll⟩ :=
      exists_statesAll rest (member.bind parameters).2 proper.2 plain.2
    refine ⟨formula :: formulas, ?_, ?_⟩
    · rw [List.map_cons, stated.characters_eq, statedAll.characters_eq, bindMembers, piecesOf,
        List.map_cons]
    · intro final kept holds
      rw [bindMembers] at kept
      have early : (member.bind parameters).2.bindings.entries <+: final.entries := by
        refine List.IsPrefix.trans ?_ kept
        rw [bindMembers_snd]
        exact Parameters.prefix_bindConstraints _ _
      rw [Formula.evaluateAll?, stated.evaluate?_eq final early holds,
        statedAll.evaluateAll?_eq final kept holds, evals]

end

end Condition

/-! ### The text of a filter -/

namespace Filter

/-- An expression states a filter under bindings: it is a group that is the text of one formula
and of no other, it is read as that formula whatever follows it, and with the value of every
parameter looked up in the bindings the formula holds for just those records, given by the
comparisons that they satisfy, which the filter asks for. -/
def StatedBy (filter : Filter) (expression : String) (final : Bindings) : Prop :=
  ∃ formula : Formula, formula.isGroup = true ∧ formula.write = expression ∧
    (∀ other : Formula, other.write = expression → other = formula) ∧
    (∀ rest : String,
      Formula.read? (expression ++ rest) = some (formula, Token.scan rest.toList)) ∧
    ∀ holds : Constraint → Bool, formula.evaluate? final holds = some (filter.meets holds)

theorem exists_condition? {filter : Filter} (asks : filter.constraints ≠ []) :
    ∃ condition, filter.condition? = some condition := by
  have nonempty : filter.condition?.isNone = false := by
    rw [isNone_condition?, ← Bool.not_eq_true, isEmpty_iff_constraints]
    exact asks
  cases level : filter.condition? with
  | none => simp [level] at nonempty
  | some condition => exact ⟨condition, rfl⟩

/-- Behind its keyword, the clause of a filter with constraints states the filter. -/
theorem clause_stated {filter : Filter} (asks : filter.constraints ≠ [])
    (plain : ∀ constraint ∈ filter.constraints, RecordKey.isBare constraint.1.toList = true)
    (parameters : Parameters) :
    ∃ expression, Piece.writeAll (clause (some filter) parameters).1 = " WHERE " ++ expression ∧
      filter.StatedBy expression (clause (some filter) parameters).2.bindings := by
  obtain ⟨condition, level⟩ := exists_condition? asks
  have leaves := leaves_condition? filter
  rw [level, Option.map_some, Option.getD_some] at leaves
  obtain ⟨formula, stated⟩ := condition.exists_states parameters
    (isProper_condition? filter condition level) (by rwa [leaves])
  have group : formula.isGroup = true := by
    rw [stated.isGroup_eq, isGroup_condition? level]
  have text : formula.write = Piece.writeAll (condition.bind parameters).1.pieces := by
    rw [Formula.write, stated.characters_eq, String.ofList_toList]
  rw [clause, Option.bind_some, level]
  refine ⟨formula.write, by rw [text]; rfl, formula, group, rfl, ?_, ?_, ?_⟩
  · exact fun other same => Formula.write_injective same
  · exact fun rest => Formula.read?_write_append group rest
  · intro holds
    rw [stated.evaluate?_eq _ (List.prefix_refl _), eval_condition? holds filter condition level]

/-- The text of a select or an update says behind ` WHERE ` what its filter means, under the
bindings of the finished statement. What stands in front of the expression and behind it does not
depend on the filter, and the filter does not make the statement fail. A filter, at any depth, asks
that each of its own constraints holds, that each filter of its first branch holds which has a
constraint, and, if there are such filters in its second branch, that one of them does. -/
theorem serialize_stated (schema : Schema) {table : String} (named : table ≠ "")
    {filter : Filter} (asks : filter.constraints ≠ [])
    (plain : ∀ constraint ∈ filter.constraints, RecordKey.isBare constraint.1.toList = true)
    (initial : Bindings) :
    (∀ (query : Select) (columns : String), query.filter = some filter →
      query.projection.columns table = .ok columns →
      ∃ expression final,
        (Statement.select table query).serialize schema initial =
          (.ok ("SELECT " ++ columns ++ " FROM " ++ table ++ " WHERE " ++ expression ++
            query.tail ++ ";"), final) ∧
        filter.StatedBy expression final) ∧
    (∀ query : Update, query.filter = some filter → query.assignments.isEmpty = false →
      ∃ expression final,
        (Statement.update table query).serialize schema initial =
          (.ok ("UPDATE " ++ table ++ " SET " ++ Statement.assignmentsText query ++ " WHERE " ++
            expression ++ query.tail ++ ";"), final) ∧
        filter.StatedBy expression final) ∧
    ∀ (holds : Constraint → Bool) (tree : Filter), tree.meets holds = true ↔
      (∀ constraint ∈ tree.fields.entries, holds constraint = true) ∧
      (∀ child ∈ tree.all, child.isEmpty = false → child.meets holds = true) ∧
      ((∃ child ∈ tree.any, child.isEmpty = false) →
        ∃ child ∈ tree.any, child.isEmpty = false ∧ child.meets holds = true) := by
  refine ⟨?_, ?_, meets_iff⟩
  · intro query columns filtered listed
    obtain ⟨expression, text, stated⟩ :=
      clause_stated asks plain (Parameters.ofBindings initial)
    refine ⟨expression, _, ?_, stated⟩
    rw [Statement.serialize_select schema named query listed, filtered, text]
    simp only [String.append_assoc]
  · intro query filtered assigns
    obtain ⟨expression, text, stated⟩ :=
      clause_stated asks plain (Statement.assigned query initial)
    refine ⟨expression, _, ?_, stated⟩
    rw [Statement.serialize_update schema named query assigns, filtered, text]
    simp only [String.append_assoc]

/-- A filter with all three parts, an empty filter in each branch and one field twice. -/
def threeParts : Filter :=
  ⟨Dictionary.ofList [("age", .int 3)],
    [Filter.empty, ofAny [ofAll [⟨Dictionary.ofList [("name", .string ") OR (")], [], []⟩]]],
    [⟨Dictionary.ofList [("age", .null)], [], []⟩, ofAll [Filter.empty],
      ⟨Dictionary.ofList [("a", .bool true), ("b", .bool false)], [], []⟩]⟩

/-- In an update that has taken the name of the first comparison. -/
theorem serialize_threeParts_stated :
    "User" ≠ "" ∧ threeParts.constraints ≠ [] ∧
    (∀ constraint ∈ threeParts.constraints, RecordKey.isBare constraint.1.toList = true) ∧
    ∃ expression final,
      (Statement.update "User"
          ⟨Dictionary.ofList [("age_1", .int 4)], some threeParts, none, Options.unset⟩).serialize
          ⟨Dictionary.empty⟩ Dictionary.empty =
        (.ok ("UPDATE User SET age_1 = $age_1 WHERE " ++ expression ++ ";"), final) ∧
      threeParts.StatedBy expression final := by
  let query : Update :=
    ⟨Dictionary.ofList [("age_1", .int 4)], some threeParts, none, Options.unset⟩
  have named : "User" ≠ "" := by decide
  have asks : threeParts.constraints ≠ [] := by decide
  have plain : ∀ constraint ∈ threeParts.constraints,
      RecordKey.isBare constraint.1.toList = true := by decide
  have before : "UPDATE " ++ "User" ++ " SET " ++ Statement.assignmentsText query ++ " WHERE " =
      "UPDATE User SET age_1 = $age_1 WHERE " := by decide
  have after : query.tail = "" := by decide
  refine ⟨named, asks, plain, ?_⟩
  obtain ⟨expression, final, text, stated⟩ :=
    (serialize_stated ⟨Dictionary.empty⟩ named asks plain Dictionary.empty).2.1 query rfl rfl
  rw [before, after, String.append_empty] at text
  exact ⟨expression, final, text, stated⟩

end Filter

end DocQuery

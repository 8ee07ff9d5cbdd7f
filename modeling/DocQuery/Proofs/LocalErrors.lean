/-
This file proves that a statement that cannot be compiled gives a local error, whatever is wrong
with it.

The property is one of results: each of their errors is local. It holds of what succeeds, and a
sequence of steps has it if each step does, so it is carried through the clauses of a definition
as they are put together.
-/

import DocQuery.Statement.Compiled

namespace DocQuery

/-- Every error of the result is local. -/
def FailsLocally {Result : Type} (result : Except Error Result) : Prop :=
  ∀ error, result = .error error → error.isLocal = true

namespace FailsLocally

variable {Result Next : Type}

theorem ok (result : Result) : FailsLocally (.ok result) := by
  intro error failed
  cases failed

theorem error {error : Error} (isLocal : error.isLocal = true) :
    FailsLocally (.error error : Except Error Result) := by
  intro other failed
  cases failed
  exact isLocal

theorem bind {result : Except Error Result} {next : Result → Except Error Next}
    (first : FailsLocally result) (later : ∀ value, FailsLocally (next value)) :
    FailsLocally (result >>= next) := by
  cases result with
  | error failure => exact error (first failure rfl)
  | ok value => exact later value

theorem map {result : Except Error Result} (first : FailsLocally result) (change : Result → Next) :
    FailsLocally (result.map change) := by
  cases result with
  | error failure => exact error (first failure rfl)
  | ok value => exact ok _

end FailsLocally

/-! ### Clauses of a field definition -/

theorem Expression.write_failsLocally (expression : Expression) :
    FailsLocally expression.write := by
  unfold write
  split
  · split
    · exact .error rfl
    · exact .ok _
  · exact .error rfl

theorem Rule.write_failsLocally (rule : Rule) : FailsLocally rule.write := by
  cases rule with
  | deny => exact .ok _
  | allow => exact .ok _
  | allowWhere expression => exact .bind expression.write_failsLocally fun _ => .ok _

theorem Permissions.writeRules_failsLocally (rules : List (Operation × Rule)) :
    FailsLocally (writeRules rules) := by
  induction rules with
  | nil => exact .ok _
  | cons entry rest inductionHypothesis =>
    exact .bind entry.2.write_failsLocally fun _ => .bind inductionHypothesis fun _ => .ok _

theorem Permissions.write_failsLocally (permissions : Permissions) :
    FailsLocally permissions.write := by
  unfold write
  split
  · exact Rule.write_failsLocally _
  · exact .bind (writeRules_failsLocally _) fun _ => .ok _

theorem DefaultValue.write_failsLocally (value : DefaultValue) : FailsLocally value.write := by
  cases value with
  | literal value => exact .ok _
  | expression content => exact content.write_failsLocally

namespace Field

theorem clause_failsLocally {Content : Type} (keyword : String)
    {write : Content → Except Error String} (each : ∀ content, FailsLocally (write content))
    (content : Option Content) : FailsLocally (clause keyword write content) := by
  cases content with
  | none => exact .ok _
  | some content => exact .bind (each content) fun _ => .ok _

theorem definitionTail_failsLocally (field : Field) : FailsLocally field.definitionTail :=
  .bind (clause_failsLocally _ DefaultValue.write_failsLocally _) fun _ =>
    .bind (clause_failsLocally _ Expression.write_failsLocally _) fun _ =>
      .bind (clause_failsLocally _ Expression.write_failsLocally _) fun _ =>
        .bind (clause_failsLocally _ Permissions.write_failsLocally _) fun _ =>
          .bind (clause_failsLocally _ (fun _ => .ok _) _) fun _ => .ok _

end Field

/-! ### Definitions -/

namespace Schema

theorem resolve_failsLocally (schema : Schema) (link : TableLink) :
    FailsLocally (schema.resolve link) := by
  unfold resolve
  split
  · exact .ok _
  · exact .error rfl

theorem targetNames_failsLocally (schema : Schema) (targets : List TableLink) :
    FailsLocally (schema.targetNames targets) := by
  induction targets with
  | nil => exact .ok _
  | cons target rest inductionHypothesis =>
    have sequence : schema.targetNames (target :: rest) =
        schema.resolve target >>= fun table =>
          (schema.targetNames rest).map fun names => table.name :: names := by
      rw [targetNames]
      cases schema.resolve target with
      | error error => rfl
      | ok table => cases schema.targetNames rest <;> rfl
    rw [sequence]
    exact .bind (schema.resolve_failsLocally target) fun _ => inductionHypothesis.map _

theorem elementType_failsLocally (schema : Schema) (kind : FieldKind) :
    FailsLocally (schema.elementType kind) := by
  cases kind with
  | scalar basic => exact .ok _
  | record targets =>
    cases targets with
    | nil => exact .error rfl
    | cons target rest =>
      have sequence : schema.elementType (.record (target :: rest)) =
          (schema.targetNames (target :: rest)).map .record := by
        rw [elementType]
        · cases schema.targetNames (target :: rest) <;> rfl
        · exact List.cons_ne_nil target rest
      rw [sequence]
      exact (schema.targetNames_failsLocally (target :: rest)).map _

theorem typeClause_failsLocally (schema : Schema) (field : Field) :
    FailsLocally (schema.typeClause field) := by
  unfold typeClause
  split
  · exact .ok _
  · have element := schema.elementType_failsLocally field.kind
    split
    · rename_i error failed
      exact .error (element error failed)
    · exact .ok _

theorem definedTable_failsLocally (schema : Schema) (table : String) :
    FailsLocally (schema.definedTable table) := by
  unfold definedTable
  split
  · exact .ok _
  · exact .error rfl

theorem definedField_failsLocally (schema : Schema) (table field : String) :
    FailsLocally (schema.definedField table field) := by
  have declared := schema.definedTable_failsLocally table
  unfold definedField
  split
  · rename_i error failed
    exact .error (declared error failed)
  · split
    · exact .ok _
    · exact .error rfl

end Schema

theorem Field.definition_failsLocally (schema : Schema) (table : String) (field : Field) :
    FailsLocally (field.definition schema table) := by
  unfold definition
  split
  · exact .error rfl
  · exact .bind (schema.typeClause_failsLocally field) fun _ =>
      .bind field.definitionTail_failsLocally fun _ => .ok _

namespace Schema

theorem tableDefinition_failsLocally (schema : Schema) (table : String) :
    FailsLocally (schema.tableDefinition table) :=
  .bind (schema.definedTable_failsLocally table) fun _ => .ok _

theorem fieldDefinition_failsLocally (schema : Schema) (table field : String) :
    FailsLocally (schema.fieldDefinition table field) :=
  .bind (schema.definedField_failsLocally table field) fun found =>
    found.2.definition_failsLocally schema found.1.name

theorem indexDefinition_failsLocally (schema : Schema) (table field : String) :
    FailsLocally (schema.indexDefinition table field) := by
  refine .bind (schema.definedField_failsLocally table field) fun found => ?_
  obtain ⟨declared, field⟩ := found
  dsimp only
  cases field.name with
  | none => exact .error rfl
  | some name => exact .ok _

end Schema

/-! ### Statements -/

theorem Projection.columns_failsLocally (table : String) (projection : Projection) :
    FailsLocally (projection.columns table) := by
  cases projection with
  | all => exact .ok _
  | only fields =>
    cases fields with
    | nil => exact .error rfl
    | cons field rest => exact .ok _
  | without fields =>
    cases fields with
    | nil => exact .ok _
    | cons field rest => exact .ok _

namespace Statement

theorem write_failsLocally (schema : Schema) (statement : Statement) (parameters : Parameters) :
    FailsLocally (statement.write schema parameters).1 := by
  unfold write
  split
  · exact .error rfl
  · cases statement with
    | defineTable table => exact (schema.tableDefinition_failsLocally table).map _
    | defineField table field => exact (schema.fieldDefinition_failsLocally table field).map _
    | defineIndex table field => exact (schema.indexDefinition_failsLocally table field).map _
    | select table query =>
      have columns := query.projection.columns_failsLocally table
      simp only [Select.write]
      split
      · rename_i error failed
        exact .error (columns error failed)
      · exact .ok _
    | update table query =>
      simp only [Update.write]
      split
      · exact .error rfl
      · exact .ok _
    | create table query =>
      simp only [Create.write]
      split
      · exact .ok _
      · exact .ok _

theorem serialize_failsLocally (schema : Schema) (statement : Statement) (initial : Bindings) :
    FailsLocally (statement.serialize schema initial).1 :=
  (statement.write_failsLocally schema (Parameters.ofBindings initial)).map _

/-- A statement that cannot be compiled gives a local error. -/
theorem compile_failsLocally (schema : Schema) (statement : Statement) :
    FailsLocally (statement.compile schema) := by
  have serialized := statement.serialize_failsLocally schema Dictionary.empty
  unfold compile
  split
  · rename_i error bindings failed
    rw [failed] at serialized
    exact .error (serialized error rfl)
  · exact .ok _

end Statement

end DocQuery

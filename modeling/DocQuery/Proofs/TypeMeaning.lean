/-
This file proves that a field accepts exactly the values of the type that its definition states.

What a type stands for is said here on types alone, without the field that they come from. The
check of a value looks at the modifiers and the links of a field and never at a schema, while the
type is written with the names of the tables that the schema has for the links. The two agree since
a schema finds under a name only the table of this name, and they agree on every nesting since the
check treats null as a matter of the element, just as `option` stands inside `array`.
-/

import DocQuery.Proofs.SchemaBuilding
import DocQuery.Proofs.TypeReading

namespace DocQuery

/-! ### What types stand for -/

/-- The values of a kind. -/
def Scalar.Holds : Scalar → Value → Prop
  | .string, value => ∃ text, value = .string text
  | .float, value => (∃ number, value = .float number) ∨ ∃ number, value = .int number
  | .int, value => ∃ number, value = .int number
  | .bool, value => ∃ truth, value = .bool truth
  | .datetime, value =>
    (∃ instant, value = .instant instant) ∨ ∃ text, value = .string text ∧ isTimestamp text = true
  | .object, value => ∃ entries, value = .object entries

/-- The values of a type. A record may be given as the text of its id. -/
def TypeExpression.Holds : TypeExpression → Value → Prop
  | .scalar basic, value => basic.Holds value
  | .record tables, value =>
    ∃ id, (value = .record id ∨ ∃ text, value = .string text ∧ RecordId.read? text = some id) ∧
      id.table ∈ tables
  | .option element, value => value = .null ∨ element.Holds value
  | .array element, value => ∃ items, value = .list items ∧ ∀ item ∈ items, element.Holds item

/-- The values that a type clause allows. -/
def TypeClause.Holds : TypeClause → Value → Prop
  | .flexible, _ => True
  | .typed type, value => type.Holds value

/-! ### Elements -/

theorem Scalar.accepts_iff (basic : Scalar) (value : Value) :
    basic.accepts value = true ↔ basic.Holds value := by
  cases basic <;> cases value <;> simp [accepts, Holds]

namespace FieldKind

theorem linksTo_iff (targets : List TableLink) (id : RecordId) :
    linksTo targets id = true ↔ id.table ∈ targets.map TableLink.name := by
  simp only [linksTo, List.any_eq_true, beq_iff_eq, List.mem_map]

theorem accepts_record_iff (targets : List TableLink) (value : Value) :
    (FieldKind.record targets).accepts value = true ↔
      (TypeExpression.record (targets.map TableLink.name)).Holds value := by
  rw [TypeExpression.Holds]
  cases value with
  | record id => simp [accepts, linksTo_iff]
  | string text =>
    cases reads : RecordId.read? text with
    | none => simp [accepts, reads]
    | some id => simp [accepts, reads, linksTo_iff]
  | _ => simp [accepts]

/-- No kind of element takes null, which only a modifier allows. -/
theorem accepts_null (kind : FieldKind) : kind.accepts .null = false := by
  cases kind with
  | scalar basic => cases basic <;> rfl
  | record targets => rfl

end FieldKind

namespace Field

variable {field : Field} {type : TypeExpression}

/-- An optional element is null or of the kind of the field. -/
theorem acceptsElement_iff (holds : ∀ value, field.kind.accepts value = true ↔ type.Holds value)
    (value : Value) :
    field.acceptsElement value = true ↔
      (if field.isOptional then TypeExpression.option type else type).Holds value := by
  -- The kind refuses null, so the modifier alone decides on it.
  cases optional : field.isOptional with
  | false =>
    rw [if_neg Bool.false_ne_true, ← holds]
    cases value <;> simp [acceptsElement, optional, field.kind.accepts_null]
  | true =>
    rw [if_pos rfl, TypeExpression.Holds, ← holds]
    cases value <;> simp [acceptsElement, optional]

/-- A field that has a type accepts a list of elements if it is an array, and else one element. -/
theorem accepts_iff (typed : field.isFlexible = false)
    (holds : ∀ value, field.acceptsElement value = true ↔ type.Holds value) (value : Value) :
    field.accepts value = true ↔
      (if field.isArray then TypeExpression.array type else type).Holds value := by
  unfold accepts
  rw [typed, if_neg Bool.false_ne_true]
  cases field.isArray with
  | false =>
    rw [if_neg Bool.false_ne_true, if_neg Bool.false_ne_true]
    exact holds value
  | true =>
    rw [if_pos rfl, if_pos rfl, TypeExpression.Holds]
    cases value with
    | list items => simp [← holds]
    | _ => simp

end Field

namespace Schema

variable {tables : List Table} {schema : Schema}

/-- The tables that links lead to are declared and have the names that the links give. -/
theorem targetNames_of_build (built : build tables = .ok schema) {targets : List TableLink}
    {names : List String} (found : schema.targetNames targets = .ok names) :
    names = targets.map TableLink.name ∧ ∀ name ∈ names, name ∈ tables.map Table.name := by
  induction targets generalizing names with
  | nil =>
    cases found
    exact ⟨rfl, List.forall_mem_nil _⟩
  | cons target rest inductionHypothesis =>
    rw [targetNames, resolve] at found
    cases leads : schema.table? target.name with
    | none =>
      rw [leads] at found
      cases found
    | some table =>
      rw [leads] at found
      obtain ⟨member, named⟩ := (table?_of_build built).mp leads
      cases later : schema.targetNames rest with
      | error error =>
        rw [later] at found
        cases found
      | ok others =>
        rw [later] at found
        cases found
        obtain ⟨same, declared⟩ := inductionHypothesis later
        rw [List.map_cons, same, named]
        exact ⟨rfl, List.forall_mem_cons.mpr
          ⟨named ▸ List.mem_map_of_mem member, same ▸ declared⟩⟩

/-- The type of the elements of a kind stands for the values that the kind accepts, and can be told
from its text. -/
theorem elementType_of_build (plain : ∀ table ∈ tables, PlainName table.name)
    (built : build tables = .ok schema) {kind : FieldKind} {type : TypeExpression}
    (written : schema.elementType kind = .ok type) :
    type.Readable ∧ ∀ value, kind.accepts value = true ↔ type.Holds value := by
  unfold elementType at written
  split at written
  · rename_i basic
    cases written
    exact ⟨trivial, basic.accepts_iff⟩
  · cases written
  · rename_i targets nonempty
    cases found : schema.targetNames targets with
    | error error =>
      rw [found] at written
      cases written
    | ok names =>
      rw [found] at written
      cases written
      obtain ⟨rfl, declared⟩ := targetNames_of_build built found
      refine ⟨⟨?_, fun name member => ?_⟩, FieldKind.accepts_record_iff targets⟩
      · rw [ne_eq, List.map_eq_nil_iff]
        rintro rfl
        exact nonempty rfl
      · obtain ⟨table, among, rfl⟩ := List.mem_map.mp (declared name member)
        exact plain table among

/-- The type clause of a field is read back from its text, and the field accepts exactly the values
that the clause allows. -/
theorem accepts_iff_typeClause_holds {field : Field} {clause : TypeClause}
    (plain : ∀ table ∈ tables, PlainName table.name) (built : build tables = .ok schema)
    (written : schema.typeClause field = .ok clause) :
    (∀ rest : String,
      (∀ character ∈ rest.toList.head?, RecordKey.continuesBare character = false) →
      TypeClause.read? (clause.write ++ rest) = some (clause, Token.scan rest.toList)) ∧
    ∀ value, field.accepts value = true ↔ clause.Holds value := by
  suffices clause.Readable ∧ ∀ value, field.accepts value = true ↔ clause.Holds value from
    ⟨fun rest ends => TypeClause.read?_write_append this.1 ends, this.2⟩
  unfold typeClause at written
  split at written
  · rename_i flexible
    cases written
    refine ⟨trivial, fun value => iff_of_true ?_ trivial⟩
    unfold Field.accepts
    exact if_pos flexible
  · rename_i typed
    cases ofElement : schema.elementType field.kind with
    | error error =>
      rw [ofElement] at written
      cases written
    | ok type =>
      rw [ofElement] at written
      cases written
      obtain ⟨readable, holds⟩ := elementType_of_build plain built ofElement
      refine ⟨?_, Field.accepts_iff (Bool.not_eq_true _ ▸ typed) (Field.acceptsElement_iff holds)⟩
      show TypeExpression.Readable _
      split <;> split <;> exact readable

/-- A field of lists in which null may stand beside links to two tables. -/
def sharedField : Field :=
  { Field.ofKind (.record [.deferred "User", .declared "Post"]) with
    name := some "shared", owner := some "Post", isOptional := true, isArray := true }

/-- Two tables, one of which has this field. -/
def sharingTables : List Table :=
  [Table.withoutFields "User", ⟨"Post", Dictionary.ofList [("shared", sharedField)], false⟩]

/-- The schema of the two tables. -/
def sharingSchema : Schema :=
  ⟨Dictionary.ofList (sharingTables.map fun table => (table.name, table))⟩

/-- The type clause of the field. -/
def sharedClause : TypeClause :=
  .typed (.array (.option (.record ["User", "Post"])))

/-- Null may be an item of a list that is shared, but not stand instead of the list. -/
theorem sharedClause_null_inside :
    (∀ table ∈ sharingTables, PlainName table.name) ∧
    build sharingTables = .ok sharingSchema ∧
    sharingSchema.typeClause sharedField = .ok sharedClause ∧
    TypeClause.read? "TYPE array<option<record<User | Post>>>;" =
      some (sharedClause, [.mark ';']) ∧
    sharedClause.Holds (.list [.null, .string "Post:1", .record ⟨"User", .text ":"⟩]) ∧
    ¬ sharedClause.Holds .null ∧ ¬ sharedClause.Holds (.list [.string "Tag:1"]) := by
  have plain : ∀ table ∈ sharingTables, PlainName table.name := by decide
  have built : build sharingTables = .ok sharingSchema := rfl
  have written : sharingSchema.typeClause sharedField = .ok sharedClause := rfl
  obtain ⟨reads, accepts⟩ := accepts_iff_typeClause_holds plain built written
  refine ⟨plain, built, written, reads ";" ?_, ?_, ?_, ?_⟩
  · rintro character ⟨⟩
    decide
  · exact (accepts _).mp (by decide)
  · rw [← accepts]
    decide
  · rw [← accepts]
    decide

end Schema

end DocQuery

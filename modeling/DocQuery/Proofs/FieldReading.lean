/-
This file proves that the definition of a field tells how the field is configured.

A field whose definition holds no expression is written part after part: its mark, its name and its
table, its type, and then clauses that may be left out. Each part tells what it says in front of
what can follow it. A type ends where a word ends; a default ends where its literal is read back;
a comment ends with its quote, so the keywords of other clauses may stand in it. Permissions are the
rules of the operations in a row, each behind `FOR`, and end in front of a comment or of the end,
unless all four are the same. The short form begins like no row of rules, and as it says all four
there is only one way to write given permissions.
-/

import DocQuery.Proofs.DefinitionText
import DocQuery.Proofs.LiteralReading

namespace DocQuery

variable {marks : List String}

/-! ### Types, literals and strings -/

/-- Whether a character does not begin what stands behind a literal. -/
def continuesLiteral (character : Char) : Bool :=
  !decide (character ∈ [' ', ',', ']', '\x7d', ';'])

namespace Tells

/-- A type clause tells itself in front of what no word goes on with. -/
theorem typeClause (ends : EndsRun RecordKey.continuesBare marks) :
    Tells TypeClause.Readable TypeClause.write id marks := by
  intro first second firstReadable secondReadable rest other goesOn otherGoesOn same
  have reads := TypeClause.read?_write_append firstReadable (ends.head_ends goesOn)
  rw [same, TypeClause.read?_write_append secondReadable (ends.head_ends otherGoesOn),
    Option.some_inj, Prod.mk.injEq] at reads
  obtain ⟨rfl, -⟩ := reads
  exact ⟨rfl, (String.append_right_inj _).mp same⟩

/-- A literal tells its value in front of what may stand behind a literal. -/
theorem literal (ends : EndsRun continuesLiteral marks) :
    Tells (fun value => ∀ leaf ∈ value.leaves, leaf.IsTold) Value.literal id marks := by
  have endsLiteral {rest : String} (goesOn : GoesOn marks rest) :
      Value.EndsLiteral rest.toList := by
    intro character first
    have closing := ends.head_ends goesOn character first
    rw [continuesLiteral, Bool.not_eq_false', decide_eq_true_iff] at closing
    exact closing
  intro first second firstTold secondTold rest other goesOn otherGoesOn same
  have reads := Value.ofLiteral?_append firstTold (endsLiteral goesOn)
  rw [same, Value.ofLiteral?_append secondTold (endsLiteral otherGoesOn), Option.some_inj,
    Prod.mk.injEq] at reads
  exact ⟨reads.1.symm, reads.2.symm⟩

/-- A string tells itself whatever follows. -/
theorem quoted (marks : List String) : Tells (fun _ => True) Text.quoted id marks := by
  intro first second _ _ rest other _ _ same
  have reads := Value.readLeaf_quoted first rest.toList
  rw [← String.toList_append, same, String.toList_append, Value.readLeaf_quoted,
    Option.some_inj, Prod.mk.injEq, Value.string.injEq, String.toList_inj] at reads
  exact ⟨reads.1.symm, reads.2.symm⟩

end Tells

/-! ### Rules -/

namespace Rule

theorem eq_of_expression? {rule : Rule} (noExpression : rule.expression? = none) :
    rule = .deny ∨ rule = .allow := by
  cases rule with
  | deny => exact .inl rfl
  | allow => exact .inr rfl
  | allowWhere expression => cases noExpression

/-- The text of a rule without an expression. -/
def keyword (allows : Bool) : String :=
  if allows then "FULL" else "NONE"

theorem apart (first second : Bool) (different : first ≠ second) :
    Apart (keyword first) [keyword second] := by
  revert different
  cases first <;> cases second <;> decide

theorem text_eq_keyword {rule : Rule} (noExpression : rule.expression? = none) :
    rule.text = keyword (rule == .allow) := by
  rcases eq_of_expression? noExpression with rfl | rfl <;> rfl

end Rule

/-- A rule without an expression tells itself, whatever follows. -/
theorem Tells.rule (marks : List String) :
    Tells (fun rule : Rule => rule.expression? = none) Rule.text id marks := by
  refine (Tells.keyword Rule.apart marks).transfer (fun rule => rule == .allow)
    (fun _ _ => trivial) (fun _ => Rule.text_eq_keyword) ?_
  intro first second firstNone secondNone same
  rcases Rule.eq_of_expression? firstNone with rfl | rfl <;>
    rcases Rule.eq_of_expression? secondNone with rfl | rfl
  · rfl
  · cases same
  · cases same
  · rfl

/-! ### Permissions -/

theorem Operation.apart (first second : Operation) (different : first ≠ second) :
    Apart first.keyword [second.keyword] := by
  revert different
  cases first <;> cases second <;> decide

namespace Permissions

/-- The text of a rule behind its operation, without the `FOR` in front of it. -/
def entryText (entry : Operation × Rule) : String :=
  entry.1.keyword ++ (" " ++ entry.2.text)

/-- The `FOR` in front of each rule but the first one can be read as a part of the separator. -/
theorem intercalate_ruleText (entry : Operation × Rule) (rest : List (Operation × Rule)) :
    String.intercalate " " ((entry :: rest).map ruleText) =
      "FOR " ++ String.intercalate " FOR " ((entry :: rest).map entryText) := by
  have each (entry : Operation × Rule) : ruleText entry = "FOR " ++ entryText entry := by
    rw [ruleText, entryText, String.append_assoc, String.append_assoc]
  have separator : " FOR " = " " ++ "FOR " := rfl
  induction rest generalizing entry with
  | nil => simp only [List.map_cons, List.map_nil, String.intercalate_singleton, each]
  | cons next others inductionHypothesis =>
    simp only [List.map_cons] at inductionHypothesis ⊢
    rw [String.intercalate_cons_cons, inductionHypothesis, String.intercalate_cons_cons, each,
      separator]
    simp only [String.append_assoc]

/-- A rule is listed exactly if it is the one of its operation. -/
theorem mem_rules_iff {permissions : Permissions} {operation : Operation} {rule : Rule} :
    (operation, rule) ∈ permissions.rules ↔ permissions.rule? operation = some rule := by
  have listed : operation ∈ [Operation.select, .create, .update, .delete] := by
    cases operation <;> decide
  rw [rules, List.mem_filterMap]
  constructor
  · rintro ⟨other, -, found⟩
    obtain ⟨_, states, same⟩ := Option.map_eq_some_iff.mp found
    cases same
    exact states
  · intro states
    exact ⟨operation, listed, by rw [states, Option.map_some]⟩

theorem rules_injective : Function.Injective rules := by
  intro first second same
  have each (operation : Operation) : first.rule? operation = second.rule? operation := by
    refine Option.ext fun rule => ?_
    rw [← mem_rules_iff, ← mem_rules_iff, same]
  obtain ⟨select, create, update, delete⟩ := first
  obtain ⟨otherSelect, otherCreate, otherUpdate, otherDelete⟩ := second
  rw [mk.injEq]
  exact ⟨each .select, each .create, each .update, each .delete⟩

/-- The rule that is written once for all operations, or the rules that are written in a row. -/
def form (permissions : Permissions) : Rule ⊕ List (Operation × Rule) :=
  match permissions.uniform? with
  | some rule => .inl rule
  | none => .inr permissions.rules

theorem form_injective : Function.Injective form := by
  intro first second same
  unfold form at same
  cases short : first.uniform? with
  | some rule =>
    cases otherShort : second.uniform? with
    | some other =>
      rw [short, otherShort] at same
      cases same
      rw [(eq_same_of_uniform? short).1, (eq_same_of_uniform? otherShort).1]
    | none =>
      rw [short, otherShort] at same
      cases same
  | none =>
    cases otherShort : second.uniform? with
    | some other =>
      rw [short, otherShort] at same
      cases same
    | none =>
      rw [short, otherShort] at same
      exact rules_injective (Sum.inr_injective same)

/-- Whether permissions set a rule, and none that has an expression. -/
def IsTold (permissions : Permissions) : Prop :=
  permissions.rules ≠ [] ∧ ∀ entry ∈ permissions.rules, entry.2.expression? = none

end Permissions

namespace Tells

/-- A rule behind its operation tells both, whatever follows. -/
theorem entry (marks : List String) :
    Tells (fun entry : Operation × Rule => entry.2.expression? = none) Permissions.entryText id
      marks :=
  ((keyword Operation.apart [" "]).comap Prod.fst fun _ _ => trivial).thenBehind
    ((rule marks).comap Prod.snd fun _ noExpression => noExpression)

/-- Permissions tell themselves in front of what does not go on with a further rule. -/
theorem permissions (apart : Apart " FOR " marks) :
    Tells Permissions.IsTold Permissions.text id marks := by
  -- A row ends in front of the marks, which no separator begins like.
  have row := ((entry (" FOR " :: marks)).separated apart).behind "FOR "
  have differ : ∀ (rule : Rule) (entries : List (Operation × Rule)), rule.expression? = none →
      (entries ≠ [] ∧ ∀ entry ∈ entries, entry.2.expression? = none) → ∀ rest other,
        rule.text ++ rest ≠ "FOR " ++ String.intercalate " FOR "
          (entries.map Permissions.entryText) ++ other := by
    intro rule entries noExpression _ rest other
    have short : Apart "FOR " [rule.text] := by
      rcases Rule.eq_of_expression? noExpression with rfl | rfl <;> decide
    rw [String.append_assoc]
    exact short.ne_append (goesOn_head rule.text [] rest) _
  refine ((rule marks).either row differ).transfer Permissions.form ?_ ?_ ?_
  · rintro permissions ⟨nonempty, told⟩
    unfold Permissions.form
    cases short : permissions.uniform? with
    | some rule => exact (Permissions.eq_same_of_uniform? short).2
    | none => exact ⟨nonempty, told⟩
  · rintro permissions ⟨nonempty, -⟩
    unfold Permissions.form Permissions.text
    cases permissions.uniform? with
    | some rule => rfl
    | none =>
      obtain ⟨first, rest, shape⟩ := List.exists_cons_of_ne_nil nonempty
      rw [shape]
      exact Permissions.intercalate_ruleText first rest
  · intro first second _ _ same
    rw [List.map_id_fun, Sum.map_id_id] at same
    exact Permissions.form_injective same

end Tells

/-! ### Types -/

namespace FieldKind

theorem type_ne_option (kind : FieldKind) (element : TypeExpression) :
    kind.type ≠ .option element := by
  cases kind <;> exact TypeExpression.noConfusion

theorem type_ne_array (kind : FieldKind) (element : TypeExpression) :
    kind.type ≠ .array element := by
  cases kind <;> exact TypeExpression.noConfusion

end FieldKind

/-- A type that is never around another one by itself tells whether it has been put around one. -/
theorem TypeExpression.eq_of_around_eq {around : TypeExpression → TypeExpression}
    (injective : Function.Injective around) {first second : TypeExpression}
    (plain : ∀ element, first ≠ around element) (otherPlain : ∀ element, second ≠ around element)
    {isAround otherIsAround : Bool}
    (same : (if isAround then around first else first) =
      if otherIsAround then around second else second) :
    isAround = otherIsAround ∧ first = second := by
  cases isAround with
  | false =>
    cases otherIsAround with
    | false => exact ⟨rfl, same⟩
    | true => exact absurd same (plain second)
  | true =>
    cases otherIsAround with
    | false => exact absurd same.symm (otherPlain first)
    | true => exact ⟨rfl, injective same⟩

namespace Field

/-- What is said on types tells the marks of a field and the type of its elements. -/
theorem sameType_of_statedType_eq {first second : Field}
    (same : first.statedType = second.statedType) :
    first.isFlexible = second.isFlexible ∧ (first.isFlexible = false →
      first.isArray = second.isArray ∧ first.isOptional = second.isOptional ∧
        first.kind.type = second.kind.type) := by
  have noArray (field : Field) (element : TypeExpression) :
      (if field.isOptional then .option field.kind.type else field.kind.type) ≠
        TypeExpression.array element := by
    cases field.isOptional with
    | false => exact field.kind.type_ne_array element
    | true => exact TypeExpression.noConfusion
  unfold statedType at same
  cases flexible : first.isFlexible with
  | true =>
    cases otherFlexible : second.isFlexible with
    | true => exact ⟨rfl, nofun⟩
    | false =>
      rw [flexible, otherFlexible] at same
      cases same
  | false =>
    cases otherFlexible : second.isFlexible with
    | true =>
      rw [flexible, otherFlexible] at same
      cases same
    | false =>
      rw [flexible, otherFlexible] at same
      -- From the outside in: whether there is a list, then whether its elements may be null.
      obtain ⟨arrays, elements⟩ := TypeExpression.eq_of_around_eq
        (fun _ _ => TypeExpression.array.inj) (noArray first) (noArray second)
        (TypeClause.typed.inj same)
      obtain ⟨optionals, types⟩ := TypeExpression.eq_of_around_eq
        (fun _ _ => TypeExpression.option.inj) first.kind.type_ne_option
        second.kind.type_ne_option elements
      exact ⟨rfl, fun _ => ⟨arrays, optionals, types⟩⟩

/-- The type of a field can be read if its links lead to plainly named tables. -/
theorem readable_statedType {field : Field} (has : field.HasType)
    (plain : ∀ target ∈ field.kind.targets, PlainName target.name) :
    field.statedType.Readable := by
  unfold statedType
  cases flexible : field.isFlexible with
  | true => exact trivial
  | false =>
    have element : field.kind.type.Readable := by
      rcases has with isFlexible | linked
      · rw [flexible] at isFlexible
        cases isFlexible
      · cases kind : field.kind with
        | scalar basic => exact trivial
        | record targets =>
          rw [kind] at linked plain
          refine ⟨fun none => linked (congrArg FieldKind.record (List.map_eq_nil_iff.mp none)), ?_⟩
          exact List.forall_mem_map.mpr plain
    cases field.isArray <;> cases field.isOptional <;> exact element

end Field

/-! ### Definitions -/

/-- Whether a default is a literal that is read back. -/
def DefaultValue.IsTold : DefaultValue → Prop
  | .literal value => ∀ leaf ∈ value.leaves, leaf.IsTold
  | .expression _ => False

/-- A field without expressions: nothing is computed or asserted, the rules say who may do what
whatever holds, and a default is a literal that is read back. -/
structure Field.IsTold (field : Field) : Prop where
  notComputed : field.computed = none
  notAsserted : field.assertion = none
  permissions : ∀ permissions ∈ field.permissions, ∀ operation,
    ∀ rule ∈ permissions.rule? operation, rule = .deny ∨ rule = .allow
  byDefault : ∀ value ∈ field.byDefault, value.IsTold

/-- A field of this name, without expressions, whose type can be read. -/
structure Field.IsToldAs (name : String) (field : Field) : Prop where
  named : field.nameOrEmpty = name
  told : field.IsTold
  readable : field.statedType.Readable

theorem Field.IsTold.statedPermissions {field : Field} (told : field.IsTold) :
    ∀ permissions ∈ field.statedPermissions, permissions.IsTold := by
  intro permissions states
  obtain ⟨given, some⟩ := Option.filter_eq_some_iff.mp states
  refine ⟨fun none => ?_, fun entry member => ?_⟩
  · rw [none] at some
    cases some
  · have rule := told.permissions permissions given entry.1 entry.2
      (Permissions.mem_rules_iff.mp member)
    rcases rule with deny | allow
    · rw [deny]
      rfl
    · rw [allow]
      rfl

/-- Permissions without a rule say of each operation what no permissions say. -/
theorem Field.bind_statedPermissions (field : Field) (operation : Operation) :
    field.statedPermissions.bind (·.rule? operation) =
      field.permissions.bind (·.rule? operation) := by
  unfold statedPermissions
  cases field.permissions with
  | none => rfl
  | some permissions =>
    cases rules : permissions.rules with
    | cons entry rest => simp [Option.filter, rules]
    | nil =>
      have unset : permissions.rule? operation = none := by
        refine Option.eq_none_iff_forall_ne_some.mpr fun rule states => ?_
        rw [← Permissions.mem_rules_iff, rules] at states
        cases states
      simp [Option.filter, rules, unset]

/-- Without expressions, the parts of a definition stand behind one another, and each part that is a
clause may be left out. -/
theorem Field.IsToldAs.definitionText_eq {name : String} {field : Field}
    (told : field.IsToldAs name) (table : String) :
    field.definitionText table = "DEFINE FIELD " ++
      ((if field.overwrite then "OVERWRITE " else "") ++ (name ++ " ON ") ++
        (table ++ " " ++ field.statedType.write) ++
        clauseText " DEFAULT " DefaultValue.text field.byDefault ++
        clauseText " PERMISSIONS " Permissions.text field.statedPermissions ++
        clauseText " COMMENT " Text.quoted field.comment) := by
  have tail : field.tailText = clauseText " DEFAULT " DefaultValue.text field.byDefault ++
      clauseText " PERMISSIONS " Permissions.text field.statedPermissions ++
      clauseText " COMMENT " Text.quoted field.comment := by
    simp only [tailText, told.told.notComputed, told.told.notAsserted, clauseText,
      String.append_empty]
  unfold definitionText
  simp only [tail, told.named, String.append_assoc]

namespace Tells

/-- A default tells itself in front of what may stand behind a literal. -/
theorem byDefault (ends : EndsRun continuesLiteral marks) :
    Tells DefaultValue.IsTold DefaultValue.text id marks := by
  rintro (first | first) (second | second) firstTold secondTold rest other goesOn otherGoesOn same
  · obtain ⟨values, rests⟩ := literal ends firstTold secondTold goesOn otherGoesOn same
    exact ⟨congrArg DefaultValue.literal values, rests⟩
  · exact absurd secondTold id
  · exact absurd firstTold id
  · exact absurd firstTold id

/-- Whether a definition replaces an earlier one can be told in front of any name, even if the name
is the mark for it. -/
theorem overwriting {name : String} (plain : PlainName name) (marks : List String) :
    Tells (fun _ => True)
      (fun overwrite : Bool => (if overwrite then "OVERWRITE " else "") ++ (name ++ " ON ")) id
      marks := by
  have differ (rest other : String) :
      "OVERWRITE " ++ (name ++ " ON ") ++ rest ≠ name ++ " ON " ++ other := by
    intro same
    -- Up to the first blank, a name that begins like the mark is the mark; what follows differs.
    have words : "OVERWRITE" ++ (" " ++ (name ++ " ON " ++ rest)) =
        name ++ (" " ++ ("ON " ++ other)) := by
      have blanks : "OVERWRITE " = "OVERWRITE" ++ " " ∧ " ON " = " " ++ "ON " := ⟨rfl, rfl⟩
      rw [blanks.1, blanks.2] at same
      rw [blanks.2]
      simpa only [String.append_assoc] using same
    have names : Tells PlainName id id [" "] := Tells.name (by decide)
    obtain ⟨same, rests⟩ := names (by decide) plain (goesOn_head " " [] _) (goesOn_head " " [] _)
      words
    rw [String.append_right_inj, ← show "OVERWRITE" = name from same, String.append_assoc] at rests
    have apart : Apart "ON " ["OVERWRITE"] := by decide
    exact apart.ne_append (goesOn_head "OVERWRITE" [] _) other rests
  intro first second _ _ rest other _ _ same
  cases first with
  | false =>
    cases second with
    | false => exact ⟨rfl, (String.append_right_inj _).mp same⟩
    | true =>
      dsimp only at same
      rw [if_neg Bool.false_ne_true, if_pos rfl, String.empty_append] at same
      exact absurd same.symm (differ other rest)
  | true =>
    cases second with
    | false =>
      dsimp only at same
      rw [if_neg Bool.false_ne_true, if_pos rfl, String.empty_append] at same
      exact absurd same (differ rest other)
    | true => exact ⟨rfl, (String.append_right_inj _).mp same⟩

/-- A definition tells each of its parts, since each part ends in front of all that can follow. -/
theorem definition {name : String} (plain : PlainName name) (table : String) :
    Tells (Field.IsToldAs name) (fun field => field.definitionText table)
      (fun field => ((((field.overwrite, field.statedType), field.byDefault),
        field.statedPermissions), field.comment)) [";"] := by
  have types : Tells TypeClause.Readable TypeClause.write id
      [" DEFAULT ", " PERMISSIONS ", " COMMENT ", ";"] := typeClause (by decide)
  have defaults : Tells DefaultValue.IsTold DefaultValue.text id
      [" PERMISSIONS ", " COMMENT ", ";"] := byDefault (by decide)
  have rules : Tells Permissions.IsTold Permissions.text id [" COMMENT ", ";"] :=
    permissions (by decide)
  have front := ((overwriting plain [table ++ " "]).comap Field.overwrite
    fun (_ : Field) (_ : Field.IsToldAs name _) => trivial).thenBehind
      (types.comap Field.statedType fun _ valid => valid.readable)
  have withDefault := front.thenClause defaults (by decide) Field.byDefault
    fun _ valid => valid.told.byDefault
  have withRules := withDefault.thenClause rules (by decide) Field.statedPermissions
    fun _ valid => valid.told.statedPermissions
  have whole := (withRules.thenClause (quoted [";"]) (by decide) Field.comment
    fun _ _ _ _ => trivial).behind "DEFINE FIELD "
  exact whole.transfer id (fun _ valid => valid) (fun _ valid => valid.definitionText_eq table)
    fun _ _ _ _ same => by simpa only [Option.map_id_fun, id] using same

end Tells

/-! ### Fields of schemas -/

namespace Field

/-- A field of a table of a schema, registered under a name: the schema has been built from declared
tables, which have plain names. -/
structure Registered (field : Field) (tables : List Table) (schema : Schema) (table name : String) :
    Prop where
  declared : ∀ table ∈ tables, table.Declared
  built : Schema.build tables = .ok schema
  plain : ∀ table ∈ tables, PlainName table.name
  found : ∃ owner, schema.table? table = some owner ∧ owner.field? name = some field

/-- Two fields that are configured alike: they replace earlier definitions or not, have no type or
the same one, in which a link counts by the names of its targets in order, the same default, the
same comment, and for each operation the same rule or none. -/
structure ConfiguredAlike (first second : Field) : Prop where
  overwrite : first.overwrite = second.overwrite
  isFlexible : first.isFlexible = second.isFlexible
  type : first.isFlexible = false → first.isArray = second.isArray ∧
    first.isOptional = second.isOptional ∧ first.kind.type = second.kind.type
  byDefault : first.byDefault = second.byDefault
  comment : first.comment = second.comment
  permissions : ∀ operation, first.permissions.bind (·.rule? operation) =
    second.permissions.bind (·.rule? operation)

/-- The definition of a registered field without expressions is written in the way that tells it. -/
theorem Registered.isToldAs {field : Field} {tables : List Table} {schema : Schema}
    {table name text : String} {initial : Bindings}
    (registered : field.Registered tables schema table name) (told : field.IsTold)
    (written : ((Statement.defineField table name).serialize schema initial).1 = .ok text) :
    field.IsToldAs name ∧ text = field.definitionText table ++ ";" := by
  obtain ⟨declared, built, plain, owner, found, filed⟩ := registered
  obtain ⟨among, rfl⟩ := (Schema.table?_of_build built).mp found
  have member : owner ∈ schema.tables.items := by rwa [Schema.items_of_build built]
  have files := Schema.files_of_build declared built member
  have entry := Entries.mem_of_find? filed
  have isField : field ∈ owner.fields.items := List.mem_map.mpr ⟨_, entry, rfl⟩
  have named := files.fieldsNamed _ entry
  obtain rfl : field.nameOrEmpty = name := by rw [nameOrEmpty, named, Option.getD_some]
  have links := Schema.linksFound_of_build built member isField
  rw [show Statement.defineField owner.name field.nameOrEmpty =
      (Subject.ofField field).statement owner from rfl,
    files.serialize_statement (Table.ofField_mem_subjects isField), Subject.text,
    Subject.definition] at written
  by_cases has : field.HasType
  · have readable := readable_statedType has fun target leads => by
      obtain ⟨linked, leadsTo, same⟩ := List.mem_map.mp
        (((Schema.exists_build_iff tables).mp ⟨schema, built⟩).linked owner among field isField
          target leads)
      rw [← same]
      exact plain linked leadsTo
    have givenIf := definition_givenIf links has named owner.name
    by_cases bound : field.IsBound
    · rw [givenIf.of_holds bound] at written
      exact ⟨⟨rfl, told, readable⟩, (Except.ok.inj written).symm⟩
    · rw [givenIf.of_fails bound] at written
      cases written
  · rw [definition_of_not_hasType has named] at written
    cases written

/-- The definition of a field determines its configuration. If two fields without expressions are
registered under the same plain name on tables of the same name, and their definitions are
serialized to the same text, then the fields are configured alike, be it in different schemas and
whatever keywords stand in the name, in the comments and in the strings of the defaults. -/
theorem configuredAlike_of_serialize_eq {tables others : List Table} {schema other : Schema}
    {table name text : String} (plain : PlainName name) {first second : Field}
    (registered : first.Registered tables schema table name)
    (otherRegistered : second.Registered others other table name)
    (told : first.IsTold) (otherTold : second.IsTold) {initial otherInitial : Bindings}
    (written : ((Statement.defineField table name).serialize schema initial).1 = .ok text)
    (otherWritten :
      ((Statement.defineField table name).serialize other otherInitial).1 = .ok text) :
    ConfiguredAlike first second := by
  obtain ⟨toldAs, rfl⟩ := registered.isToldAs told written
  obtain ⟨otherToldAs, same⟩ := otherRegistered.isToldAs otherTold otherWritten
  have ended : GoesOn [";"] ";" := ⟨";", List.mem_cons_self, "", (String.append_empty).symm⟩
  obtain ⟨features, -⟩ := Tells.definition plain table toldAs otherToldAs ended ended same
  simp only [Prod.mk.injEq] at features
  obtain ⟨⟨⟨⟨overwrite, types⟩, byDefault⟩, permissions⟩, comment⟩ := features
  obtain ⟨isFlexible, type⟩ := sameType_of_statedType_eq types
  refine ⟨overwrite, isFlexible, type, byDefault, comment, fun operation => ?_⟩
  rw [← bind_statedPermissions, ← bind_statedPermissions, permissions]

/-- A link with the name of a mark, whose default and comment hold keywords and quotes. -/
def wordyField (target : TableLink) (permissions : Option Permissions) : Field :=
  { Field.ofKind (.record [target]) with
    name := some "OVERWRITE", owner := some "Post", isOptional := true, permissions := permissions,
    byDefault := some (.literal (.list
      [.string "\" PERMISSIONS NONE", .record ⟨"User", .number 1⟩])),
    comment := some "\\\" COMMENT \"; DEFAULT NONE" }

/-- The tables of users and of posts, which have this field. -/
def wordyTables (field : Field) : List Table :=
  [Table.withoutFields "User", ⟨"Post", Dictionary.ofList [("OVERWRITE", field)], false⟩]

/-- The schema of these tables. -/
def wordySchema (field : Field) : Schema :=
  ⟨Dictionary.ofList ((wordyTables field).map fun table => (table.name, table))⟩

/-- The definition of the link. -/
def wordyText : String :=
  "DEFINE FIELD OVERWRITE ON Post TYPE option<record<User>> DEFAULT [\"\\\" PERMISSIONS NONE\", " ++
    "User:1] COMMENT \"\\\\\\\" COMMENT \\\"; DEFAULT NONE\";"

theorem wordyField_isTold (target : TableLink) {permissions : Option Permissions}
    (unset : ∀ rules ∈ permissions, rules = .same none) :
    (wordyField target permissions).IsTold := by
  refine ⟨rfl, rfl, fun rules given operation rule states => ?_, ?_⟩
  · rw [unset rules given] at states
    cases operation <;> cases states
  · rintro _ ⟨⟩
    show ∀ leaf ∈ Value.leaves _, leaf.IsTold
    decide

theorem wordyField_registered {target : TableLink}
    (leads : target = .declared "User" ∨ target = .deferred "User")
    (permissions : Option Permissions) :
    (wordyField target permissions).Registered (wordyTables (wordyField target permissions))
      (wordySchema (wordyField target permissions)) "Post" "OVERWRITE" := by
  have made : Table.ofFields "Post"
      [("OVERWRITE", { wordyField target permissions with name := none, owner := none })] =
        .ok ⟨"Post", Dictionary.ofList [("OVERWRITE", wordyField target permissions)], false⟩ := rfl
  refine ⟨?_, ?_, ?_, ⟨_, rfl, rfl⟩⟩
  · rw [wordyTables, List.forall_mem_cons, List.forall_mem_singleton]
    have noFields : Table.ofFields "User" [] = .ok (.withoutFields "User") := rfl
    exact ⟨.ofFields noFields, .ofFields made⟩
  · rcases leads with rfl | rfl <;> rfl
  · rw [wordyTables, List.forall_mem_cons, List.forall_mem_singleton]
    exact ⟨show PlainName "User" by decide, show PlainName "Post" by decide⟩

/-- A link to a declared table without permissions, and one to a table that is declared later with
permissions that say nothing, are defined by one text and are configured alike. -/
theorem configuredAlike_wordy :
    PlainName "OVERWRITE" ∧
    ((Statement.defineField "Post" "OVERWRITE").serialize
      (wordySchema (wordyField (.declared "User") none)) Dictionary.empty).1 = .ok wordyText ∧
    ((Statement.defineField "Post" "OVERWRITE").serialize
      (wordySchema (wordyField (.deferred "User") (some (.same none)))) Dictionary.empty).1 =
        .ok wordyText ∧
    ConfiguredAlike (wordyField (.declared "User") none)
      (wordyField (.deferred "User") (some (.same none))) := by
  have plain : PlainName "OVERWRITE" := by decide
  have written : ((Statement.defineField "Post" "OVERWRITE").serialize
      (wordySchema (wordyField (.declared "User") none)) Dictionary.empty).1 = .ok wordyText := rfl
  have otherWritten : ((Statement.defineField "Post" "OVERWRITE").serialize
      (wordySchema (wordyField (.deferred "User") (some (.same none)))) Dictionary.empty).1 =
        .ok wordyText := rfl
  have told : (wordyField (.declared "User") none).IsTold := wordyField_isTold _ nofun
  have otherTold : (wordyField (.deferred "User") (some (.same none))).IsTold := by
    refine wordyField_isTold _ ?_
    rintro _ ⟨⟩
    rfl
  exact ⟨plain, written, otherWritten,
    configuredAlike_of_serialize_eq plain (wordyField_registered (.inl rfl) _)
      (wordyField_registered (.inr rfl) _) told otherTold written otherWritten⟩

end Field

end DocQuery

/-
This file says what the definition of a field is made of, and when there is none.

Two things can be missing from a field: a target, if it is a link and has a type at all, and the
text of an expression. Everything else is found, since the names in the definitions of a table lead
to that table and its fields, and building a schema has followed every link. So the text of a
definition can be given without a schema and without errors, and it is the one that is written
unless something is missing.

All that follows the type fails in one way only, for want of the text of an expression. What is put
together from such parts therefore has a text exactly if each part has one.
-/

import DocQuery.Proofs.DeploymentPrefix
import DocQuery.Proofs.SingleStatement
import DocQuery.Proofs.TypeMeaning

namespace DocQuery

/-! ### What is written once expressions have texts -/

/-- The result is the given one under the condition, and otherwise the error of an expression that
has no text. -/
structure GivenIf {Result : Type} (result : Except Error Result) (condition : Prop)
    (given : Result) : Prop where
  of_holds : condition → result = .ok given
  of_fails : ¬ condition → result = .error (Error.ofFailure Failure.unboundExpression)

namespace GivenIf

variable {Result Next : Type} {condition other : Prop}

theorem ok (given : Result) : GivenIf (.ok given) True given :=
  ⟨fun _ => rfl, fun fails => absurd trivial fails⟩

theorem congr {result : Except Error Result} {given : Result}
    (givenIf : GivenIf result condition given) (same : condition ↔ other) :
    GivenIf result other given :=
  ⟨fun holds => givenIf.of_holds (same.mpr holds),
    fun fails => givenIf.of_fails fun holds => fails (same.mp holds)⟩

/-- One step behind the other gives its result if both conditions hold. -/
theorem bind {result : Except Error Result} {given : Result} {next : Result → Except Error Next}
    {last : Next} (first : GivenIf result condition given)
    (later : GivenIf (next given) other last) :
    GivenIf (result >>= next) (condition ∧ other) last := by
  constructor
  · rintro ⟨holds, laterHolds⟩
    rw [first.of_holds holds]
    exact later.of_holds laterHolds
  · intro fails
    by_cases holds : condition
    · rw [first.of_holds holds]
      exact later.of_fails fun laterHolds => fails ⟨holds, laterHolds⟩
    · rw [first.of_fails holds]
      rfl

/-- What is made of a result is given under the same condition. -/
theorem map {result : Except Error Result} {given : Result}
    (givenIf : GivenIf result condition given) (change : Result → Next) :
    GivenIf (result >>= fun value => .ok (change value)) condition (change given) :=
  (givenIf.bind (ok (change given))).congr (and_iff_left trivial)

end GivenIf

/-! ### Expressions, rules and defaults -/

/-- The text of an expression, or nothing. -/
def Expression.textOrEmpty (expression : Expression) : String :=
  expression.text.getD ""

theorem Expression.write_givenIf (expression : Expression) :
    GivenIf expression.write (expression.isBound = true) expression.textOrEmpty := by
  obtain ⟨text⟩ := expression
  cases text with
  | none => exact ⟨nofun, fun _ => rfl⟩
  | some text =>
    have bound : isBound ⟨some text⟩ = !text.isEmpty := rfl
    have written : write ⟨some text⟩ = if text.isEmpty then
        .error (Error.ofFailure Failure.unboundExpression) else .ok text := rfl
    rw [bound, written]
    cases text.isEmpty with
    | false => exact ⟨fun _ => rfl, fun fails => absurd rfl fails⟩
    | true => exact ⟨nofun, fun _ => rfl⟩

/-- The text of a rule once its expression has one. -/
def Rule.text : Rule → String
  | .deny => "NONE"
  | .allow => "FULL"
  | .allowWhere expression => "WHERE " ++ expression.textOrEmpty

theorem Rule.write_givenIf (rule : Rule) :
    GivenIf rule.write (∀ expression ∈ rule.expression?, expression.isBound = true) rule.text := by
  cases rule with
  | deny => exact (GivenIf.ok _).congr (iff_of_true trivial nofun)
  | allow => exact (GivenIf.ok _).congr (iff_of_true trivial nofun)
  | allowWhere expression =>
    refine (expression.write_givenIf.map fun text => "WHERE " ++ text).congr ?_
    exact ⟨fun bound _ same => Option.some_inj.mp same ▸ bound, fun each => each expression rfl⟩

namespace Permissions

/-- The text of a rule behind its operation. -/
def ruleText (entry : Operation × Rule) : String :=
  "FOR " ++ entry.1.keyword ++ " " ++ entry.2.text

/-- The text of permissions once their expressions have texts. -/
def text (permissions : Permissions) : String :=
  match permissions.uniform? with
  | some rule => rule.text
  | none => String.intercalate " " (permissions.rules.map ruleText)

theorem writeRules_givenIf (rules : List (Operation × Rule)) :
    GivenIf (writeRules rules)
      (∀ entry ∈ rules, ∀ expression ∈ entry.2.expression?, expression.isBound = true)
      (rules.map ruleText) := by
  induction rules with
  | nil => exact (GivenIf.ok _).congr (iff_of_true trivial (List.forall_mem_nil _))
  | cons entry rest inductionHypothesis =>
    obtain ⟨operation, rule⟩ := entry
    rw [List.forall_mem_cons]
    exact rule.write_givenIf.bind (inductionHypothesis.map
      fun others => ("FOR " ++ operation.keyword ++ " " ++ rule.text) :: others)

theorem expressions_same {rule : Rule} (noExpression : rule.expression? = none) :
    (same (some rule)).expressions = [] := by
  simp [expressions, same, rules, rule?, noExpression]

theorem write_givenIf (permissions : Permissions) :
    GivenIf permissions.write (∀ expression ∈ permissions.expressions, expression.isBound = true)
      permissions.text := by
  have each : (∀ expression ∈ permissions.expressions, expression.isBound = true) ↔
      ∀ entry ∈ permissions.rules, ∀ expression ∈ entry.2.expression?,
        expression.isBound = true := by
    rw [expressions]
    simp only [List.mem_filterMap, Option.mem_def]
    exact ⟨fun all entry member expression found => all expression ⟨entry, member, found⟩,
      fun all expression found => by
        obtain ⟨entry, member, found⟩ := found
        exact all entry member expression found⟩
  unfold write text
  cases shared : permissions.uniform? with
  | some rule =>
    obtain ⟨rfl, noExpression⟩ := eq_same_of_uniform? shared
    rw [expressions_same noExpression]
    refine rule.write_givenIf.congr (iff_of_true ?_ (List.forall_mem_nil _))
    rw [noExpression]
    exact nofun
  | none => exact ((writeRules_givenIf permissions.rules).map _).congr each.symm

end Permissions

namespace DefaultValue

/-- The text of a default once its expression has one. -/
def text : DefaultValue → String
  | .literal value => value.literal
  | .expression content => content.textOrEmpty

theorem write_givenIf (value : DefaultValue) :
    GivenIf value.write (∀ expression ∈ value.expression?, expression.isBound = true)
      value.text := by
  cases value with
  | literal value => exact (GivenIf.ok _).congr (iff_of_true trivial nofun)
  | expression content =>
    refine content.write_givenIf.congr ?_
    exact ⟨fun bound _ same => Option.some_inj.mp same ▸ bound, fun each => each content rfl⟩

end DefaultValue

/-! ### What follows the type of a field -/

namespace Field

/-- Whether every expression of the field has a text. -/
def IsBound (field : Field) : Prop :=
  ∀ expression ∈ field.expressions, expression.isBound = true

instance (field : Field) : Decidable field.IsBound :=
  inferInstanceAs (Decidable (∀ expression ∈ field.expressions, expression.isBound = true))

theorem clause_givenIf {Content : Type} (keyword : String)
    {write : Content → Except Error String} {condition : Content → Prop} {text : Content → String}
    (each : ∀ content, GivenIf (write content) (condition content) (text content))
    (content : Option Content) :
    GivenIf (clause keyword write content) (∀ part ∈ content, condition part)
      (clauseText keyword text content) := by
  cases content with
  | none => exact (GivenIf.ok _).congr (iff_of_true trivial nofun)
  | some content =>
    refine ((each content).map fun text => keyword ++ text).congr ?_
    exact ⟨fun holds _ same => Option.some_inj.mp same ▸ holds, fun all => all content rfl⟩

/-- What follows the type in the definition of a field once its expressions have texts. -/
def tailText (field : Field) : String :=
  clauseText " DEFAULT " DefaultValue.text field.byDefault ++
    clauseText " VALUE " Expression.textOrEmpty field.computed ++
    clauseText " ASSERT " Expression.textOrEmpty field.assertion ++
    clauseText " PERMISSIONS " Permissions.text field.statedPermissions ++
    clauseText " COMMENT " Text.quoted field.comment

/-- Permissions that are left out have no expressions. -/
theorem forall_statedPermissions_iff (field : Field) (condition : Expression → Prop) :
    (∀ permissions ∈ field.statedPermissions, ∀ expression ∈ permissions.expressions,
      condition expression) ↔
      ∀ expression ∈ (field.permissions.map Permissions.expressions).getD [],
        condition expression := by
  unfold statedPermissions
  cases field.permissions with
  | none => exact iff_of_true nofun (List.forall_mem_nil _)
  | some permissions =>
    cases rules : permissions.rules with
    | nil =>
      have noExpressions : permissions.expressions = [] := by
        rw [Permissions.expressions, rules, List.filterMap_nil]
      simp [Option.filter, rules, noExpressions]
    | cons entry rest => simp [Option.filter, rules]

theorem definitionTail_givenIf (field : Field) :
    GivenIf field.definitionTail field.IsBound field.tailText := by
  have byDefault := clause_givenIf " DEFAULT " DefaultValue.write_givenIf field.byDefault
  have computed := clause_givenIf " VALUE " Expression.write_givenIf field.computed
  have assertion := clause_givenIf " ASSERT " Expression.write_givenIf field.assertion
  have permissions :=
    clause_givenIf " PERMISSIONS " Permissions.write_givenIf field.statedPermissions
  have comment := clause_givenIf " COMMENT " (fun text => GivenIf.ok (Text.quoted text))
    field.comment
  refine (byDefault.bind (computed.bind (assertion.bind (permissions.bind
    (comment.map _))))).congr ?_
  have defaults : (∀ expression ∈ field.byDefault.bind DefaultValue.expression?,
        expression.isBound = true) ↔
      ∀ value ∈ field.byDefault, ∀ expression ∈ value.expression?, expression.isBound = true := by
    cases field.byDefault <;> simp
  rw [forall_statedPermissions_iff, ← defaults]
  simp only [IsBound, expressions, List.forall_mem_append, Option.mem_toList, and_assoc,
    implies_true, and_true, Option.mem_def]

end Field

/-! ### Definitions -/

/-- The type of the elements of a kind, whose links lead to the tables of their names. -/
def FieldKind.type : FieldKind → TypeExpression
  | .scalar basic => .scalar basic
  | .record targets => .record (targets.map TableLink.name)

namespace Field

/-- Whether something can be said on the type of a field: it is flexible, or no link without a
target. -/
def HasType (field : Field) : Prop :=
  field.isFlexible = true ∨ field.kind ≠ .record []

instance (field : Field) : Decidable field.HasType :=
  inferInstanceAs (Decidable (field.isFlexible = true ∨ field.kind ≠ .record []))

/-- What a definition says on the type of a field. -/
def statedType (field : Field) : TypeClause :=
  if field.isFlexible then .flexible
  else
    let element := field.kind.type
    let optional := if field.isOptional then TypeExpression.option element else element
    .typed (if field.isArray then .array optional else optional)

/-- The definition of a field of a table, once it has a type and its expressions have texts. -/
def definitionText (field : Field) (table : String) : String :=
  "DEFINE FIELD " ++ (if field.overwrite then "OVERWRITE " else "") ++ field.nameOrEmpty ++
    " ON " ++ table ++ " " ++ field.statedType.write ++ field.tailText

end Field

namespace Schema

/-- Whether the links of a kind lead to tables. -/
def LinksFound (schema : Schema) (kind : FieldKind) : Prop :=
  ∀ target ∈ kind.targets, ∃ table, schema.resolve target = .ok table ∧ table.name = target.name

theorem linksFound_of_build {tables : List Table} {schema : Schema}
    (built : build tables = .ok schema) {table : Table} (member : table ∈ schema.tables.items)
    {field : Field} (among : field ∈ table.fields.items) : schema.LinksFound field.kind := by
  intro target leads
  rw [items_of_build built] at member
  have linked := ((exists_build_iff tables).mp ⟨schema, built⟩).linked table member field among
    target leads
  obtain ⟨found, declared, named⟩ := List.mem_map.mp linked
  refine ⟨found, ?_, named⟩
  rw [resolve, (table?_of_build built).mpr ⟨declared, named⟩]

theorem targetNames_of_linksFound {schema : Schema} {targets : List TableLink}
    (found : schema.LinksFound (.record targets)) :
    schema.targetNames targets = .ok (targets.map TableLink.name) := by
  induction targets with
  | nil => rfl
  | cons target rest inductionHypothesis =>
    obtain ⟨table, resolves, named⟩ := found target List.mem_cons_self
    have later := inductionHypothesis fun other leads => found other (List.mem_cons_of_mem _ leads)
    rw [targetNames, resolves, later, List.map_cons, ← named]

theorem typeClause_of_hasType {schema : Schema} {field : Field}
    (found : schema.LinksFound field.kind) (has : field.HasType) :
    schema.typeClause field = .ok field.statedType := by
  unfold typeClause Field.statedType
  cases flexible : field.isFlexible with
  | true => rfl
  | false =>
    have element : schema.elementType field.kind = .ok field.kind.type := by
      rcases has with isFlexible | linked
      · rw [flexible] at isFlexible
        cases isFlexible
      · cases kind : field.kind with
        | scalar basic => rfl
        | record targets =>
          rw [kind] at found linked
          rw [elementType, targetNames_of_linksFound found]
          · rfl
          · rintro rfl
            exact linked rfl
    rw [element]
    rfl

theorem typeClause_of_not_hasType {schema : Schema} {field : Field} (lacks : ¬ field.HasType) :
    schema.typeClause field = .error (Error.ofFailure (Failure.unsupportedVariant "record")) := by
  rw [Field.HasType, not_or, not_not] at lacks
  rw [typeClause, if_neg lacks.1, lacks.2]
  rfl

end Schema

namespace Field

variable {schema : Schema} {field : Field}

/-- A field that has a type is defined by its text if its expressions have texts. -/
theorem definition_givenIf (found : schema.LinksFound field.kind) (has : field.HasType)
    (named : field.name = some field.nameOrEmpty) (table : String) :
    GivenIf (field.definition schema table) field.IsBound (field.definitionText table) := by
  rw [definition, named, Schema.typeClause_of_hasType found has]
  exact field.definitionTail_givenIf.map _

theorem definition_of_not_hasType (lacks : ¬ field.HasType)
    (named : field.name = some field.nameOrEmpty) (table : String) :
    field.definition schema table =
      .error (Error.ofFailure (Failure.unsupportedVariant "record")) := by
  rw [definition, named, Schema.typeClause_of_not_hasType lacks]
  rfl

/-- Which fields can be defined, and what is wrong with the others. -/
theorem definition_exact (found : schema.LinksFound field.kind)
    (named : field.name = some field.nameOrEmpty) (table : String) :
    ((∃ text, field.definition schema table = .ok text) ↔ field.HasType ∧ field.IsBound) ∧
      ∀ error, field.definition schema table = .error error →
        error = Error.ofFailure (Failure.unsupportedVariant "record") ∨
          error = Error.ofFailure Failure.unboundExpression := by
  -- The type comes first, so a field that also lacks a text fails for want of a target.
  by_cases has : field.HasType
  · have givenIf := definition_givenIf found has named table
    by_cases bound : field.IsBound
    · rw [givenIf.of_holds bound]
      exact ⟨iff_of_true ⟨_, rfl⟩ ⟨has, bound⟩, nofun⟩
    · rw [givenIf.of_fails bound]
      refine ⟨iff_of_false nofun fun both => bound both.2, ?_⟩
      rintro error ⟨⟩
      exact .inr rfl
  · rw [definition_of_not_hasType has named]
    refine ⟨iff_of_false nofun fun both => has both.1, ?_⟩
    rintro error ⟨⟩
    exact .inl rfl

end Field

/-! ### The definitions of a table -/

namespace Schema

section Files

variable {schema : Schema} {table : Table}

theorem exists_text_of_definition {subject : Subject} {definition : String}
    (defined : subject.definition schema table = .ok definition) :
    ∃ text, subject.text schema table = .ok text := by
  rw [Subject.text, defined]
  exact ⟨_, rfl⟩

/-- Which definitions have a text, and what is wrong with the others: only that of a field may have
none. -/
theorem Files.text_exact (files : schema.Files table)
    (links : ∀ field ∈ table.fields.items, schema.LinksFound field.kind) {subject : Subject}
    (member : subject ∈ table.subjects) :
    ((∃ text, subject.text schema table = .ok text) ↔
      ∀ field, subject = .ofField field → field.HasType ∧ field.IsBound) ∧
      ∀ error, subject.text schema table = .error error →
        error = Error.ofFailure (Failure.unsupportedVariant "record") ∨
          error = Error.ofFailure Failure.unboundExpression := by
  have noError (text : String) (error : Error) (failed : Except.ok text = .error error) :
      error = Error.ofFailure (Failure.unsupportedVariant "record") ∨
        error = Error.ofFailure Failure.unboundExpression := by
    cases failed
  obtain rfl | ⟨field, among, rfl | rfl⟩ := Table.subject_cases member
  · have noField (field : Field) : Subject.ofTable ≠ .ofField field := Subject.noConfusion
    obtain ⟨text, written⟩ := exists_text_of_definition (Subject.definition.eq_1 schema table)
    rw [written]
    exact ⟨iff_of_true ⟨text, rfl⟩ fun field same => absurd same (noField field), noError text⟩
  · obtain ⟨exactly, errors⟩ := Field.definition_exact (links field among)
      (files.fieldsNamed.field?_eq among).1 table.name
    rw [Subject.text, Subject.definition]
    cases definition : field.definition schema table.name with
    | error error =>
      rw [definition] at exactly errors
      refine ⟨iff_of_false ?_ fun all => ?_, ?_⟩
      · rintro ⟨text, ⟨⟩⟩
      · obtain ⟨text, same⟩ := exactly.mpr (all field rfl)
        cases same
      · rintro other ⟨⟩
        exact errors error rfl
    | ok text =>
      rw [definition] at exactly
      refine ⟨iff_of_true ⟨_, rfl⟩ ?_, noError _⟩
      rintro other ⟨⟩
      exact exactly.mp ⟨text, rfl⟩
  · have noField (other : Field) : Subject.ofIndex field ≠ .ofField other := Subject.noConfusion
    obtain ⟨text, written⟩ :=
      exists_text_of_definition (Subject.definition.eq_3 schema table field)
    rw [written]
    exact ⟨iff_of_true ⟨text, rfl⟩ fun field same => absurd same (noField field), noError text⟩

end Files

/-- Which tables of a schema can be defined. All definitions of a table are serialized exactly if
each field of it is flexible or no link without a target, and each expression of it has a text. A
definition that is not serialized lacks a target or the text of an expression: no table, field, name
or link is ever found missing. -/
theorem definitions_serialize_iff {tables : List Table} {schema : Schema}
    (declared : ∀ table ∈ tables, table.Declared) (built : build tables = .ok schema)
    {table : Table} (member : table ∈ schema.tables.items) (initial : Bindings) :
    ((∀ statement ∈ Statement.definitions table,
        ∃ text, (statement.serialize schema initial).1 = .ok text) ↔
      ∀ field ∈ table.fields.items, (field.isFlexible = true ∨ field.kind ≠ .record []) ∧
        ∀ expression ∈ field.expressions, expression.isBound = true) ∧
    ∀ statement ∈ Statement.definitions table, ∀ error,
      (statement.serialize schema initial).1 = .error error →
        error = Error.ofFailure (Failure.unsupportedVariant "record") ∨
          error = Error.ofFailure Failure.unboundExpression := by
  have files := files_of_build declared built member
  have links : ∀ field ∈ table.fields.items, schema.LinksFound field.kind :=
    fun field among => linksFound_of_build built member among
  have exactly {subject : Subject} (about : subject ∈ table.subjects) :=
    files.text_exact links about
  rw [Statement.definitions_eq, List.forall_mem_map, List.forall_mem_map]
  refine ⟨⟨fun all field among => ?_, fun all subject about => ?_⟩,
    fun subject about error failed => ?_⟩
  · have about := Table.ofField_mem_subjects among
    obtain ⟨text, written⟩ := all (.ofField field) about
    rw [files.serialize_statement about] at written
    exact (exactly about).1.mp ⟨text, written⟩ field rfl
  · rw [files.serialize_statement about]
    refine (exactly about).1.mpr ?_
    rintro field rfl
    obtain other | ⟨field, among, same | other⟩ := Table.subject_cases about
    · cases other
    · cases same
      exact all field among
    · cases other
  · rw [files.serialize_statement about] at failed
    exact (exactly about).2 error failed

/-- A link that has no target, but no type either. -/
def relatedField : Field :=
  { Field.ofKind (.record []) with
    name := some "related", owner := some "Post", isFlexible := true }

/-- A field that is computed from an expression whose text is empty. -/
def slugField : Field :=
  { Field.ofKind (.scalar .string) with
    name := some "slug", owner := some "Post", computed := some (.raw "") }

/-- The table of posts, with these fields. -/
def posts : Table :=
  ⟨"Post", Dictionary.ofList [("related", relatedField), ("slug", slugField)], false⟩

/-- The schema of posts. -/
def postsSchema : Schema :=
  ⟨Dictionary.ofList [("Post", posts)]⟩

/-- The field of posts that is computed from nothing keeps the table from being defined. -/
theorem definitions_serialize_posts :
    (∀ table ∈ [posts], table.Declared) ∧ build [posts] = .ok postsSchema ∧
    posts ∈ postsSchema.tables.items ∧
    (¬ ∀ statement ∈ Statement.definitions posts,
      ∃ text, (statement.serialize postsSchema Dictionary.empty).1 = .ok text) ∧
    ((Statement.defineField "Post" "slug").serialize postsSchema Dictionary.empty).1 =
      .error (Error.ofFailure Failure.unboundExpression) := by
  have declared : ∀ table ∈ [posts], table.Declared := by
    intro table member
    rw [List.mem_singleton.mp member]
    have made : Table.ofFields "Post"
        [("related", { Field.ofKind (.record []) with isFlexible := true }),
          ("slug", { Field.ofKind (.scalar .string) with computed := some (.raw "") })] =
        .ok posts := rfl
    exact .ofFields made
  have built : build [posts] = .ok postsSchema := rfl
  have member : posts ∈ postsSchema.tables.items := List.mem_cons_self
  obtain ⟨exactly, -⟩ := definitions_serialize_iff declared built member Dictionary.empty
  refine ⟨declared, built, member, fun all => ?_, rfl⟩
  have bound := (exactly.mp all slugField (List.mem_cons_of_mem _ List.mem_cons_self)).2
    (.raw "") List.mem_cons_self
  exact absurd bound (by decide)

end Schema

end DocQuery

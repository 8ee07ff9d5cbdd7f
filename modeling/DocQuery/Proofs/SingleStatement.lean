/-
This file proves that the text of a statement is one statement and not several.

Two things are written as they are: names, which are plain, and expressions, which are asked to
contain neither a terminator nor the beginning of a string or a key. Everything else that comes
from outside is written as a literal or as the key of a record and is balanced whatever it says.
So each clause is balanced if what it writes as it is allows that, the statement is put together
from clauses, and the only terminator is the one that is put behind it.
-/

import DocQuery.Proofs.Losslessness
import DocQuery.Proofs.Scan

namespace DocQuery

/-! ### What results give -/

/-- What the result gives, if it gives anything, has the property. -/
def Gives {Result : Type} (property : Result → Prop) (result : Except Error Result) : Prop :=
  ∀ given, result = .ok given → property given

namespace Gives

variable {Result Next : Type} {property : Result → Prop} {other : Next → Prop}

theorem ok {result : Result} (has : property result) : Gives property (.ok result) := by
  rintro _ ⟨⟩
  exact has

theorem error (error : Error) : Gives property (.error error) := nofun

theorem bind {result : Except Error Result} {next : Result → Except Error Next}
    (first : Gives property result) (later : ∀ given, property given → Gives other (next given)) :
    Gives other (result >>= next) := by
  cases result with
  | error failure => exact error failure
  | ok given => exact later given (first given rfl)

end Gives

/-! ### Expressions and permissions -/

/-- An expression that can be written without changing where a scan is. -/
def Expression.IsHarmless (expression : Expression) : Prop :=
  ∀ text ∈ expression.text, Harmless text

instance (expression : Expression) : Decidable expression.IsHarmless :=
  inferInstanceAs (Decidable (∀ text ∈ expression.text, Harmless text))

theorem Expression.IsHarmless.balanced {expression : Expression}
    (harmless : expression.IsHarmless) : Gives Balanced expression.write := by
  unfold write
  split
  · rename_i text found
    split
    · exact .error _
    · exact .ok (harmless text found).balanced
  · exact .error _

/-- The expression of a rule, if it has one. -/
def Rule.expression? : Rule → Option Expression
  | .allowWhere expression => some expression
  | _ => none

theorem Rule.balanced {rule : Rule}
    (harmless : ∀ expression ∈ rule.expression?, expression.IsHarmless) :
    Gives Balanced rule.write := by
  cases rule with
  | deny => exact .ok (Harmless.balanced (by decide))
  | allow => exact .ok (Harmless.balanced (by decide))
  | allowWhere expression =>
    exact .bind (harmless expression rfl).balanced fun text balanced =>
      .ok (.behind (by decide) balanced)

namespace Permissions

/-- The expressions of permissions. -/
def expressions (permissions : Permissions) : List Expression :=
  permissions.rules.filterMap fun entry => entry.2.expression?

theorem balanced_writeRules {rules : List (Operation × Rule)}
    (harmless : ∀ entry ∈ rules, ∀ expression ∈ entry.2.expression?, expression.IsHarmless) :
    Gives (fun texts => ∀ text ∈ texts, Balanced text) (writeRules rules) := by
  induction rules with
  | nil => exact .ok (List.forall_mem_nil _)
  | cons entry rest inductionHypothesis =>
    rw [List.forall_mem_cons] at harmless
    have operation : Balanced ("FOR " ++ entry.1.keyword ++ " ") := by
      cases entry.1 <;> exact Harmless.balanced (by decide)
    exact .bind (Rule.balanced harmless.1) fun first balanced =>
      .bind (inductionHypothesis harmless.2) fun others each =>
        .ok (List.forall_mem_cons.mpr ⟨operation.append balanced, each⟩)

/-- Permissions with a rule that is written once have this rule for every operation, and it has no
expression. -/
theorem eq_same_of_uniform? {permissions : Permissions} {rule : Rule}
    (shared : permissions.uniform? = some rule) :
    permissions = same (some rule) ∧ rule.expression? = none := by
  obtain ⟨select, create, update, delete⟩ := permissions
  unfold uniform? at shared
  grind [same, Rule.expression?]

theorem balanced {permissions : Permissions}
    (harmless : ∀ expression ∈ permissions.expressions, expression.IsHarmless) :
    Gives Balanced permissions.write := by
  have each : ∀ entry ∈ permissions.rules, ∀ expression ∈ entry.2.expression?,
      expression.IsHarmless := fun entry member expression found =>
    harmless expression (List.mem_filterMap.mpr ⟨entry, member, found⟩)
  unfold write
  split
  · rename_i rule shared
    -- A rule that all operations share has no expression.
    refine Rule.balanced fun expression found => ?_
    rw [(eq_same_of_uniform? shared).2] at found
    cases found
  · exact .bind (balanced_writeRules each) fun texts balanced =>
      .ok (.intercalate (by decide) balanced)

end Permissions

/-! ### Definitions of fields -/

namespace DefaultValue

/-- The expression of a default, if it is one. -/
def expression? : DefaultValue → Option Expression
  | .literal _ => none
  | .expression content => some content

/-- The tables of the record ids in a default. -/
def recordTables : DefaultValue → List String
  | .literal value => value.recordTables
  | .expression _ => []

theorem balanced {value : DefaultValue} (plain : ∀ table ∈ value.recordTables, PlainName table)
    (harmless : ∀ expression ∈ value.expression?, expression.IsHarmless) :
    Gives Balanced value.write := by
  cases value with
  | literal value => exact .ok (value.balanced_literal plain)
  | expression content => exact (harmless content rfl).balanced

end DefaultValue

/-- The tables that a type names. -/
def TypeExpression.tables : TypeExpression → List String
  | .scalar _ => []
  | .record tables => tables
  | .option element => element.tables
  | .array element => element.tables

theorem TypeExpression.balanced {type : TypeExpression}
    (plain : ∀ table ∈ type.tables, PlainName table) : Balanced type.write := by
  induction type with
  | scalar basic => cases basic <;> exact Harmless.balanced (by decide)
  | record tables =>
    exact .between (by decide)
      (.intercalate (by decide) fun table member => .name (plain table member)) (by decide)
  | option element inductionHypothesis =>
    exact .between (by decide) (inductionHypothesis plain) (by decide)
  | array element inductionHypothesis =>
    exact .between (by decide) (inductionHypothesis plain) (by decide)

/-- The tables that a type clause names. -/
def TypeClause.tables : TypeClause → List String
  | .flexible => []
  | .typed type => type.tables

theorem TypeClause.balanced {clause : TypeClause}
    (plain : ∀ table ∈ clause.tables, PlainName table) : Balanced clause.write := by
  cases clause with
  | flexible => exact Harmless.balanced (by decide)
  | typed type => exact .behind (by decide) (TypeExpression.balanced plain)

theorem Balanced.overwrite (replaces : Bool) :
    Balanced (if replaces then "OVERWRITE " else "") := by
  cases replaces <;> exact Harmless.balanced (by decide)

namespace Field

/-- The expressions of a field. -/
def expressions (field : Field) : List Expression :=
  (field.byDefault.bind DefaultValue.expression?).toList ++ field.computed.toList ++
    field.assertion.toList ++ (field.permissions.map Permissions.expressions).getD []

/-- The names that the definition of a field writes, apart from that of its table: its own, and
the tables of its type and of the record ids in its default. -/
def writtenNames (schema : Schema) (field : Field) : List String :=
  field.name.toList ++
    ((schema.typeClause field).toOption.map TypeClause.tables).getD [] ++
    (field.byDefault.map DefaultValue.recordTables).getD []

theorem balanced_clause {Content : Type} {keyword : String}
    {write : Content → Except Error String} {content : Option Content}
    (harmless : Harmless keyword) (each : ∀ some ∈ content, Gives Balanced (write some)) :
    Gives Balanced (clause keyword write content) := by
  cases content with
  | none => exact .ok .empty
  | some content =>
    exact .bind (each content rfl) fun text balanced => .ok (balanced.behind harmless)

theorem balanced_definitionTail {field : Field}
    (plain : ∀ table ∈ (field.byDefault.map DefaultValue.recordTables).getD [], PlainName table)
    (harmless : ∀ expression ∈ field.expressions, expression.IsHarmless) :
    Gives Balanced field.definitionTail := by
  rw [expressions, List.forall_mem_append, List.forall_mem_append, List.forall_mem_append]
    at harmless
  obtain ⟨⟨⟨byDefault, computed⟩, assertion⟩, permissions⟩ := harmless
  have defaults : ∀ value ∈ field.byDefault, Gives Balanced value.write := by
    intro value found
    rw [found] at plain byDefault
    exact DefaultValue.balanced plain fun expression given =>
      byDefault expression (Option.mem_toList.mpr given)
  have computes : ∀ content ∈ field.computed, Gives Balanced content.write :=
    fun content found => (computed content (Option.mem_toList.mpr found)).balanced
  have asserts : ∀ content ∈ field.assertion, Gives Balanced content.write :=
    fun content found => (assertion content (Option.mem_toList.mpr found)).balanced
  have permits : ∀ content ∈ field.statedPermissions, Gives Balanced content.write := by
    intro content found
    rw [(Option.filter_eq_some_iff.mp found).1] at permissions
    exact Permissions.balanced permissions
  refine .bind (balanced_clause (by decide) defaults) fun _ first => ?_
  refine .bind (balanced_clause (by decide) computes) fun _ second => ?_
  refine .bind (balanced_clause (by decide) asserts) fun _ third => ?_
  refine .bind (balanced_clause (by decide) permits) fun _ fourth => ?_
  refine .bind (balanced_clause (by decide) fun comment _ => .ok (.quoted comment))
    fun _ fifth => ?_
  exact .ok ((((first.append second).append third).append fourth).append fifth)

theorem balanced_definition {schema : Schema} {table : String} {field : Field}
    (tablePlain : PlainName table) (plain : ∀ name ∈ field.writtenNames schema, PlainName name)
    (harmless : ∀ expression ∈ field.expressions, expression.IsHarmless) :
    Gives Balanced (field.definition schema table) := by
  rw [writtenNames, List.forall_mem_append, List.forall_mem_append] at plain
  obtain ⟨⟨own, types⟩, records⟩ := plain
  unfold definition
  split
  · exact .error _
  · rename_i name named
    rw [named] at own
    have type : Gives (fun clause => Balanced clause.write) (schema.typeClause field) := by
      intro clause given
      rw [given] at types
      exact TypeClause.balanced types
    have start : Balanced ("DEFINE FIELD " ++ (if field.overwrite then "OVERWRITE " else "") ++
        name ++ " ON " ++ table ++ " ") :=
      (((((Balanced.overwrite _).behind (by decide)).append
        (.name (own name List.mem_cons_self))).before (by decide)).append
          (.name tablePlain)).before (by decide)
    refine .bind type fun clause typeBalanced => ?_
    refine .bind (balanced_definitionTail records harmless) fun tail tailBalanced => ?_
    exact .ok ((start.append typeBalanced).append tailBalanced)

end Field

/-! ### Queries -/

namespace Formula

theorem passes_separator (connective : Connective) :
    Passes .outside connective.separator.toList .outside := by
  cases connective <;> exact .harmless (by decide)

mutual

/-- An expression has names, keywords and parentheses only. -/
theorem passes : (formula : Formula) → Passes .outside formula.characters .outside
  | .compare field parameter => by
    have equals : Passes .outside [' ', '=', ' ', '$'] .outside := .harmless (by decide)
    exact Passes.append (Balanced.name field.plain)
      (equals.append (Balanced.name parameter.plain))
  | .alone member => by
    have opens : Passes .outside ['('] .outside := .harmless (by decide)
    have closes : Passes .outside [')'] .outside := .harmless (by decide)
    exact opens.append (member.passes.append closes)
  | .joined connective first second others => by
    have opens : Passes .outside ['('] .outside := .harmless (by decide)
    have closes : Passes .outside [')'] .outside := .harmless (by decide)
    exact opens.append ((((first.passes.append (passes_separator connective)).append
      second.passes).append (passes_laterCharacters connective others)).append closes)

theorem passes_laterCharacters (connective : Connective) :
    (members : List Formula) → Passes .outside (laterCharacters connective members) .outside
  | [] => .nil _
  | member :: rest =>
    ((passes_separator connective).append member.passes).append
      (passes_laterCharacters connective rest)

end

end Formula

theorem Balanced.clauseText {Part : Type} {keyword : String} {write : Part → String}
    {part : Option Part} (harmless : Harmless keyword)
    (each : ∀ some ∈ part, Balanced (write some)) :
    Balanced (DocQuery.clauseText keyword write part) := by
  cases part with
  | none => exact empty
  | some part => exact (each part rfl).behind harmless

theorem Balanced.names {names : List String} (plain : ∀ name ∈ names, PlainName name) :
    Balanced (String.intercalate ", " names) :=
  .intercalate (by decide) fun name member => .name (plain name member)

/-- The decimal text of a number is balanced. -/
theorem Balanced.repr (number : Nat) : Balanced (Nat.repr number) :=
  standsBare (RecordKey.all_standsBare_repr number)

theorem Filter.balanced_clause {filter : Option Filter} (plain : HasPlainNames filter)
    (parameters : Parameters) : Balanced (Piece.writeAll (clause filter parameters).1) := by
  obtain ⟨formula, -, text, -⟩ := exists_clauseText plain parameters
  rw [text]
  refine .clauseText (by decide) fun group _ => ?_
  rw [Balanced, Formula.write, String.toList_ofList]
  exact group.passes

namespace Options

theorem balanced_parallelClause (options : Options) : Balanced options.parallelClause := by
  rw [parallelClause_eq]
  exact .clauseText (by decide) fun _ _ => .empty

theorem balanced_timeoutClause (options : Options) : Balanced options.timeoutClause := by
  rw [timeoutClause_eq]
  exact .clauseText (by decide) fun number _ =>
    (Balanced.repr number).before (by decide)

end Options

namespace Select

theorem Readable.balanced_columns {table : String} {query : Select}
    (readable : query.Readable table) :
    Balanced (Sum.elim Projection.starText (String.intercalate ", ") query.projection.form) := by
  have plain := readable.columns
  match shape : query.projection with
  | .all => exact Harmless.balanced (by decide)
  | .only fields =>
    rw [shape] at plain
    exact .names plain
  | .without [] => exact Harmless.balanced (by decide)
  | .without (field :: rest) =>
    rw [shape] at plain
    refine .behind (by decide) (.clauseText (by decide) ?_)
    rintro _ ⟨⟩
    exact .names plain

theorem Readable.balanced_tail {table : String} {query : Select}
    (readable : query.Readable table) : Balanced query.tail := by
  have order : Balanced query.orderClause := by
    rw [orderClause_eq]
    refine .clauseText (by decide) fun entries given => ?_
    have plain := (valid_given? readable.order entries given).2
    refine .intercalate (by decide) fun text member => ?_
    obtain ⟨entry, among, rfl⟩ := List.mem_map.mp member
    have direction : Balanced entry.2.keyword := by
      cases entry.2 <;> exact Harmless.balanced (by decide)
    exact ((Balanced.name (plain entry among)).before (by decide)).append direction
  have number (keyword : String) (harmless : Harmless keyword) (given : Option UInt64) :
      Balanced (numberClause keyword given) := by
    rw [numberClause_eq]
    exact .clauseText harmless fun value _ => .repr value
  exact (((order.append (number _ (by decide) query.limit)).append
    (number _ (by decide) query.offset)).append query.options.balanced_parallelClause).append
      query.options.balanced_timeoutClause

theorem Readable.balanced_text {table : String} {query : Select}
    (readable : query.Readable table) (parameters : Parameters) :
    Balanced (text parameters (table, query)) :=
  (((Balanced.between (by decide) readable.balanced_columns (by decide)).append
    (.name readable.table)).append (Filter.balanced_clause readable.filter parameters)).append
      readable.balanced_tail

end Select

namespace Update

theorem balanced_tail (query : Update) : Balanced query.tail := by
  have returning : Balanced (clauseText " RETURN " Returning.keyword query.returning) := by
    refine .clauseText (by decide) fun mode _ => ?_
    cases mode <;> exact Harmless.balanced (by decide)
  rw [tail_eq]
  exact (returning.append query.options.balanced_timeoutClause).append
    query.options.balanced_parallelClause

theorem Readable.balanced_text {table : String} {query : Update}
    (readable : query.Readable table) (parameters : Parameters) :
    Balanced (text parameters (table, query)) := by
  have assignments : Balanced (Statement.assignmentsText query) := by
    rw [assignmentsText_eq]
    refine .intercalate (by decide) fun text member => ?_
    obtain ⟨name, among, rfl⟩ := List.mem_map.mp member
    have plain := Balanced.name (readable.assignments name among)
    exact plain.append (plain.behind (by decide))
  exact (((Balanced.between (by decide) (.name readable.table) (by decide)).append
    assignments).append (Filter.balanced_clause readable.filter _)).append query.balanced_tail

end Update

namespace Create

/-- The pieces of a create: its start, the members of its content and the end of the content. -/
theorem balanced_write {table : String} {query : Create} {parameters final : Parameters}
    {pieces : List Piece} (tablePlain : PlainName table)
    (plain : ∀ name ∈ query.content.names, PlainName name)
    (written : query.write table parameters = (.ok pieces, final)) :
    Balanced (Piece.writeAll pieces) := by
  have key : Balanced query.keyClause := by
    rw [keyClause_eq]
    exact .clauseText (by decide) fun key _ => .key key
  have start : Balanced ("CREATE ONLY " ++ table ++ query.keyClause) :=
    (Balanced.behind (by decide) (.name tablePlain)).append key
  have member (name : String) (plain : PlainName name) :
      Balanced (Piece.writeAll (member name)) := by
    have named := Balanced.name plain
    exact named.append (.behind (by decide) ((named.behind (by decide)).append .empty))
  rw [write] at written
  split at written
  · cases written
    exact (start.before (by decide)).append .empty
  · cases written
    have members : Balanced (Piece.writeAll (Piece.joined ", "
        (query.content.names.map Create.member))) := by
      rw [Piece.writeAll_joined, List.map_map]
      refine .intercalate (by decide) fun text listed => ?_
      obtain ⟨name, among, rfl⟩ := List.mem_map.mp listed
      exact member name (plain name among)
    rw [Piece.writeAll_append]
    exact ((start.before (by decide)).append members).append (Balanced.empty.behind (by decide))

end Create

/-! ### Statements -/

namespace Statement

/-- The names that a statement writes as they are. Those of a definition are found in the schema:
they are the names of the table and of the field that it is about, of the tables to which the
field leads, and of the tables of the record ids in its default. -/
def namesIn (schema : Schema) : Statement → List String
  | .defineTable table => ((schema.definedTable table).toOption.map Table.name).toList
  | .defineField table field =>
    match schema.definedField table field with
    | .ok (declared, found) => declared.name :: found.writtenNames schema
    | .error _ => []
  | .defineIndex table field =>
    match schema.definedField table field with
    | .ok (declared, found) => declared.name :: found.name.toList
    | .error _ => []
  | query => query.writtenNames

/-- The expressions that a statement writes as they are, which only definitions of fields do. -/
def expressionsIn (schema : Schema) : Statement → List Expression
  | .defineField table field =>
    match schema.definedField table field with
    | .ok (_, found) => found.expressions
    | .error _ => []
  | _ => []

section Balanced

variable {schema : Schema} {table field : String}

theorem balanced_tableDefinition
    (plain : ∀ name ∈ (defineTable table).namesIn schema, PlainName name) :
    Gives Balanced (schema.tableDefinition table) := by
  rw [namesIn] at plain
  rw [Schema.tableDefinition]
  cases found : schema.definedTable table with
  | error error => exact .error error
  | ok declared =>
    rw [found] at plain
    have own := Balanced.name (plain declared.name List.mem_cons_self)
    exact .ok ((((Balanced.overwrite _).behind (by decide)).append own).before (by decide))

theorem balanced_fieldDefinition
    (plain : ∀ name ∈ (defineField table field).namesIn schema, PlainName name)
    (harmless : ∀ expression ∈ (defineField table field).expressionsIn schema,
      expression.IsHarmless) :
    Gives Balanced (schema.fieldDefinition table field) := by
  rw [namesIn] at plain
  rw [expressionsIn] at harmless
  rw [Schema.fieldDefinition]
  cases found : schema.definedField table field with
  | error error => exact .error error
  | ok both =>
    rw [found] at plain harmless
    rw [List.forall_mem_cons] at plain
    exact Field.balanced_definition plain.1 plain.2 harmless

theorem balanced_indexDefinition
    (plain : ∀ name ∈ (defineIndex table field).namesIn schema, PlainName name) :
    Gives Balanced (schema.indexDefinition table field) := by
  rw [namesIn] at plain
  rw [Schema.indexDefinition]
  cases found : schema.definedField table field with
  | error error => exact .error error
  | ok both =>
    obtain ⟨declared, defined⟩ := both
    rw [found] at plain
    rw [List.forall_mem_cons] at plain
    dsimp only [bind, Except.bind]
    split
    · exact .error _
    · rename_i name named
      rw [named] at plain
      have own := Balanced.name (plain.2 name List.mem_cons_self)
      exact .ok (((((own.between (by decide) (by decide)).append (.name plain.1)).before
        (by decide)).append own).before (by decide))

theorem balanced_ofDefinition {definition : Except Error String} {parameters final : Parameters}
    {pieces : List Piece} (balanced : Gives Balanced definition)
    (written : ofDefinition definition parameters = (.ok pieces, final)) :
    Balanced (Piece.writeAll pieces) := by
  cases definition with
  | error error => cases written
  | ok text =>
    cases written
    exact (balanced text rfl).append .empty

/-- A statement that is serialized is balanced up to the terminator behind it. -/
theorem balanced_of_serialize {statement : Statement} {initial final : Bindings} {sent : String}
    (plain : ∀ name ∈ statement.namesIn schema, PlainName name)
    (harmless : ∀ expression ∈ statement.expressionsIn schema, expression.IsHarmless)
    (serialized : statement.serialize schema initial = (.ok sent, final)) :
    ∃ text, sent = text ++ ";" ∧ Balanced text := by
  obtain ⟨pieces, parameters, written, text, -⟩ := serialize_eq_ok serialized
  rw [write.eq_def] at written
  split at written
  · cases written
  · rename_i named
    cases statement with
    | defineTable table =>
      exact ⟨_, text, balanced_ofDefinition (balanced_tableDefinition plain) written⟩
    | defineField table field =>
      exact ⟨_, text, balanced_ofDefinition (balanced_fieldDefinition plain harmless) written⟩
    | defineIndex table field =>
      exact ⟨_, text, balanced_ofDefinition (balanced_indexDefinition plain) written⟩
    | select table query =>
      obtain ⟨wanted, whole, -⟩ := Select.serialize_eq_ok named serialized
      exact ⟨_, whole, (readable_select plain wanted).balanced_text _⟩
    | update table query =>
      obtain ⟨assigns, whole, -⟩ := Update.serialize_eq_ok named serialized
      exact ⟨_, whole, (readable_update plain assigns).balanced_text _⟩
    | create table query =>
      have names : ∀ name ∈ table :: query.content.names, PlainName name := plain
      rw [List.forall_mem_cons] at names
      exact ⟨_, text, Create.balanced_write names.1 names.2 written⟩

end Balanced

/-- A statement of any kind is a single statement: whatever its strings, the names of entries and
the keys of records say, the text ends outside of them, and a terminator stands outside of them
only as the last character. -/
theorem serialize_isSingleStatement {schema : Schema} {statement : Statement}
    {initial final : Bindings} {sent : String}
    (plain : ∀ name ∈ statement.namesIn schema, PlainName name)
    (harmless : ∀ expression ∈ statement.expressionsIn schema, expression.IsHarmless)
    (serialized : statement.serialize schema initial = (.ok sent, final)) :
    IsSingleStatement sent := by
  obtain ⟨text, rfl, balanced⟩ := balanced_of_serialize plain harmless serialized
  exact balanced.isSingleStatement

/-- A field whose default and comment look like the ends of strings, keys and statements. -/
def misleadingField : Field :=
  { Field.ofKind (.scalar .object) with
    name := some "data"
    byDefault := some (.literal (.object [("a;\"", .list [.string "\\",
      .record ⟨"User", .text "⟩;⟨\\"⟩])]))
    assertion := some (.raw "$value != NONE")
    comment := some "\\\"; REMOVE TABLE Post" }

/-- The schema of a table with this field. -/
def misleadingSchema : Schema :=
  ⟨Dictionary.ofList
    [("Post", ⟨"Post", Dictionary.ofList [("data", misleadingField)], false⟩)]⟩

/-- The text of the definition of this field. -/
def misleadingText : String :=
  "DEFINE FIELD data ON Post TYPE object DEFAULT \x7b \"a;\\\"\": [\"\\\\\", " ++
    "User:⟨\\⟩;⟨\\\\⟩] \x7d ASSERT $value != NONE COMMENT \"\\\\\\\"; REMOVE TABLE Post\";"

theorem misleadingText_isSingleStatement :
    (∀ name ∈ (defineField "Post" "data").namesIn misleadingSchema, PlainName name) ∧
    (∀ expression ∈ (defineField "Post" "data").expressionsIn misleadingSchema,
      expression.IsHarmless) ∧
    (defineField "Post" "data").serialize misleadingSchema Dictionary.empty =
      (.ok misleadingText, Dictionary.empty) ∧
    IsSingleStatement misleadingText := by
  have plain : ∀ name ∈ (defineField "Post" "data").namesIn misleadingSchema,
      PlainName name := by decide
  have harmless : ∀ expression ∈ (defineField "Post" "data").expressionsIn misleadingSchema,
      expression.IsHarmless := by decide
  have serialized : (defineField "Post" "data").serialize misleadingSchema Dictionary.empty =
      (.ok misleadingText, Dictionary.empty) := rfl
  exact ⟨plain, harmless, serialized, serialize_isSingleStatement plain harmless serialized⟩

end Statement

end DocQuery

/-
This file writes statements.

A statement becomes a sequence of pieces, and its values become bindings. Definitions bind
nothing. A select names its columns, table, filter, order, limit, start and hints; an update binds
its assignments before its filter; a create binds its content. What can fail fails before
anything is bound, so a statement that is refused leaves the bindings as they were.
-/

import DocQuery.Statement.Basic
import DocQuery.Statement.FieldDefinition
import DocQuery.Statement.Parameters

namespace DocQuery

/-- The pieces of a statement, or why there are none, and the parameters afterwards. -/
abbrev Writing := Except Error (List Piece) × Parameters

/-! ### Clauses -/

namespace Projection

/-- The columns of a select. -/
def columns (table : String) : Projection → Except Error String
  | .all => .ok "*"
  | .only [] => .error (Failure.invalidStatement (.nothingIncluded table))
  | .only fields => .ok (String.intercalate ", " fields)
  | .without [] => .ok "*"
  | .without fields => .ok ("* OMIT " ++ String.intercalate ", " fields)

end Projection

namespace Filter

/-- The condition of a filter as a clause, if it asks for anything. -/
def clause (filter : Option Filter) (parameters : Parameters) : List Piece × Parameters :=
  match filter.bind Filter.condition? with
  | none => ([], parameters)
  | some condition =>
    let (condition, parameters) := condition.bind parameters
    (.text " WHERE " :: condition.pieces, parameters)

end Filter

namespace Options

/-- The hint for parallel execution. -/
def parallelClause (options : Options) : String :=
  if options.isParallel then " PARALLEL" else ""

/-- The hint for a time limit, in whole milliseconds. -/
def timeoutClause (options : Options) : String :=
  match options.timeout with
  | some span => " TIMEOUT " ++ Nat.repr span.milliseconds ++ "ms"
  | none => ""

end Options

namespace Select

/-- The sort order of a select. -/
def orderClause (query : Select) : String :=
  if query.order.isEmpty then ""
  else
    " ORDER BY " ++
      String.intercalate ", "
        (query.order.entries.map fun entry => entry.1 ++ " " ++ entry.2.keyword)

/-- A number behind a keyword, if it is set. -/
def numberClause (keyword : String) : Option UInt64 → String
  | some number => keyword ++ Nat.repr number.toNat
  | none => ""

/-- What follows the filter of a select. -/
def tail (query : Select) : String :=
  query.orderClause ++ numberClause " LIMIT " query.limit ++
    numberClause " START AT " query.offset ++ query.options.parallelClause ++
    query.options.timeoutClause

/-- Writes a select. -/
def write (table : String) (query : Select) (parameters : Parameters) : Writing :=
  match query.projection.columns table with
  | .error error => (.error error, parameters)
  | .ok columns =>
    let (condition, parameters) := Filter.clause query.filter parameters
    (.ok (.text ("SELECT " ++ columns ++ " FROM " ++ table) :: condition ++ [.text query.tail]),
      parameters)

end Select

namespace Update

/-- What follows the filter of an update. -/
def tail (query : Update) : String :=
  (match query.returning with
    | some returning => " RETURN " ++ returning.keyword
    | none => "") ++ query.options.timeoutClause ++ query.options.parallelClause

/-- An assignment of a parameter to the field of its name. -/
def assignment (field : String) : List Piece :=
  [.text field, .text " = ", .parameter field]

/-- Writes an update, which must assign something. -/
def write (table : String) (query : Update) (parameters : Parameters) : Writing :=
  if query.assignments.isEmpty then
    (.error (Failure.invalidStatement (.nothingAssigned table)), parameters)
  else
    let assignments := Piece.joined ", " (query.assignments.names.map assignment)
    let (condition, parameters) :=
      Filter.clause query.filter (parameters.bindAll query.assignments.entries)
    (.ok (.text ("UPDATE " ++ table ++ " SET ") :: assignments ++ condition ++
      [.text query.tail]), parameters)

end Update

namespace Create

/-- A field of the content with the parameter of its name. -/
def member (field : String) : List Piece :=
  [.text field, .text ": ", .parameter field]

/-- The key of the new record behind a colon, if it is set. -/
def keyClause (query : Create) : String :=
  match query.key with
  | some key => ":" ++ key.write
  | none => ""

/-- Writes a create. -/
def write (table : String) (query : Create) (parameters : Parameters) : Writing :=
  let start := "CREATE ONLY " ++ table ++ query.keyClause
  if query.content.isEmpty then
    (.ok [.text (start ++ " CONTENT \x7b\x7d")], parameters)
  else
    let members := Piece.joined ", " (query.content.names.map member)
    (.ok (.text (start ++ " CONTENT \x7b ") :: members ++ [.text " \x7d"]),
      parameters.bindAll query.content.entries)

end Create

/-! ### Statements -/

namespace Schema

/-- The table that a definition names. -/
def definedTable (schema : Schema) (table : String) : Except Error Table :=
  match schema.table? table with
  | some declared => .ok declared
  | none => .error (Failure.invalidStatement (.unknownTable table))

/-- The table and the field that a definition names. -/
def definedField (schema : Schema) (table field : String) : Except Error (Table × Field) :=
  match schema.definedTable table with
  | .error error => .error error
  | .ok declared =>
    match declared.field? field with
    | some found => .ok (declared, found)
    | none => .error (Failure.invalidStatement (.unknownField declared.name field))

/-- The definition of a table. -/
def tableDefinition (schema : Schema) (table : String) : Except Error String := do
  let declared ← schema.definedTable table
  return "DEFINE TABLE " ++ (if declared.overwrite then "OVERWRITE " else "") ++ declared.name ++
    " SCHEMAFULL PERMISSIONS NONE"

/-- The definition of a field. -/
def fieldDefinition (schema : Schema) (table field : String) : Except Error String := do
  let (declared, found) ← schema.definedField table field
  found.definition schema declared.name

/-- The definition of the index that keeps the values of a field apart. -/
def indexDefinition (schema : Schema) (table field : String) : Except Error String := do
  let (declared, found) ← schema.definedField table field
  match found.name with
  | none => .error (Failure.unsetName "field")
  | some name =>
    return "DEFINE INDEX " ++ name ++ "_UNIQUE ON " ++ declared.name ++ " FIELDS " ++ name ++
      " UNIQUE"

end Schema

namespace Statement

/-- The text of a definition as a piece; definitions bind nothing. -/
def ofDefinition (definition : Except Error String) (parameters : Parameters) : Writing :=
  (definition.map fun text => [.text text], parameters)

/-- Writes a statement, whose table must have a name. -/
def write (schema : Schema) (statement : Statement) (parameters : Parameters) : Writing :=
  if statement.table = "" then (.error (Failure.unsetName "table"), parameters)
  else
    match statement with
    | .defineTable table => ofDefinition (schema.tableDefinition table) parameters
    | .defineField table field => ofDefinition (schema.fieldDefinition table field) parameters
    | .defineIndex table field => ofDefinition (schema.indexDefinition table field) parameters
    | .select table query => query.write table parameters
    | .update table query => query.write table parameters
    | .create table query => query.write table parameters

/-- The text of a statement, or why there is none, and the bindings afterwards. -/
def serialize (schema : Schema) (statement : Statement) (bindings : Bindings) :
    Except Error String × Bindings :=
  let (written, parameters) := statement.write schema (Parameters.ofBindings bindings)
  (written.map Piece.finish, parameters.bindings)

end Statement

/-- A statement that is ready to be sent. -/
structure Compiled where
  text : String
  bindings : Bindings

namespace Statement

/-- The statement with the bindings that it alone makes. -/
def compile (schema : Schema) (statement : Statement) : Except Error Compiled :=
  match statement.serialize schema Dictionary.empty with
  | (.error error, _) => .error error
  | (.ok text, bindings) => .ok ⟨text, bindings⟩

end Statement

end DocQuery

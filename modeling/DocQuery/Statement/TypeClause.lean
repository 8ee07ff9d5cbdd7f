/-
This file holds the type clause of a field definition.

A flexible field has no type. The type of any other field is that of its kind, inside `option`
if its elements may be null, and the whole inside `array` if it holds a list. A link needs a
target, and each target must be a table of the schema.
-/

import DocQuery.Schema.Basic

namespace DocQuery

/-- A type as a definition writes it. -/
inductive TypeExpression where
  | scalar (basic : Scalar)
  /-- A record of one of these tables. -/
  | record (tables : List String)
  | option (element : TypeExpression)
  | array (element : TypeExpression)
  deriving DecidableEq

/-- What a definition says on the type of a field. -/
inductive TypeClause where
  | flexible
  | typed (type : TypeExpression)
  deriving DecidableEq

namespace TypeExpression

/-- The text of a type. -/
def write : TypeExpression → String
  | .scalar basic => basic.keyword
  | .record tables => "record<" ++ String.intercalate " | " tables ++ ">"
  | .option element => "option<" ++ element.write ++ ">"
  | .array element => "array<" ++ element.write ++ ">"

end TypeExpression

namespace TypeClause

/-- The text of a type clause. -/
def write : TypeClause → String
  | .flexible => "FLEXIBLE"
  | .typed type => "TYPE " ++ type.write

end TypeClause

namespace Schema

/-- The names of the tables that links lead to. -/
def targetNames (schema : Schema) : List TableLink → Except Error (List String)
  | [] => .ok []
  | target :: rest =>
    match schema.resolve target with
    | .error error => .error error
    | .ok table =>
      match schema.targetNames rest with
      | .error error => .error error
      | .ok names => .ok (table.name :: names)

/-- The type of the elements of a kind. -/
def elementType (schema : Schema) : FieldKind → Except Error TypeExpression
  | .scalar basic => .ok (.scalar basic)
  | .record [] => .error (Failure.unsupportedVariant "record")
  | .record targets =>
    match schema.targetNames targets with
    | .error error => .error error
    | .ok names => .ok (.record names)

/-- The type clause of a field. -/
def typeClause (schema : Schema) (field : Field) : Except Error TypeClause :=
  if field.isFlexible then .ok .flexible
  else
    match schema.elementType field.kind with
    | .error error => .error error
    | .ok element =>
      let optional := if field.isOptional then TypeExpression.option element else element
      .ok (.typed (if field.isArray then .array optional else optional))

end Schema

end DocQuery

/-
This file holds the fields of tables: their kinds, their modifiers and the values they accept.

A field is made alone and then added to exactly one table, which becomes its owner and settles
its name. A flexible field accepts everything. A field that is an array accepts the lists of its
elements, and an element may be null only if the field is optional. Links accept record ids of
their target tables, also as text, and instants are accepted as text too.
-/

import DocQuery.Instant.Timestamp
import DocQuery.Schema.Expression

namespace DocQuery

/-! ### Kinds of fields -/

/-- A kind of value that names no table. -/
inductive Scalar where
  | string
  | float
  | int
  | bool
  | datetime
  | object
  deriving DecidableEq

namespace Scalar

/-- The keyword of a kind, which is also its name in messages. -/
def keyword : Scalar → String
  | .string => "string"
  | .float => "float"
  | .int => "int"
  | .bool => "bool"
  | .datetime => "datetime"
  | .object => "object"

/-- Whether a value is of this kind; doubles may be integers and instants may be text. -/
def accepts : Scalar → Value → Bool
  | .string, .string _ => true
  | .float, .float _ => true
  | .float, .int _ => true
  | .int, .int _ => true
  | .bool, .bool _ => true
  | .datetime, .instant _ => true
  | .datetime, .string text => isTimestamp text
  | .object, .object _ => true
  | _, _ => false

end Scalar

/-- The target of a link: a table by its name, which may have been declared already or not. -/
inductive TableLink where
  | declared (name : String)
  | deferred (name : String)
  deriving DecidableEq

namespace TableLink

/-- The name of the table. -/
def name : TableLink → String
  | .declared name => name
  | .deferred name => name

/-- Whether the table may be declared later. -/
def isDeferred : TableLink → Bool
  | .declared _ => false
  | .deferred _ => true

end TableLink

/-- The kind of the elements of a field. -/
inductive FieldKind where
  | scalar (basic : Scalar)
  /-- A record of one of these tables. -/
  | record (targets : List TableLink)
  deriving DecidableEq

namespace FieldKind

/-- The name of a kind, as messages give it. -/
def name : FieldKind → String
  | .scalar basic => basic.keyword
  | .record _ => "record"

/-- The targets of a link. -/
def targets : FieldKind → List TableLink
  | .scalar _ => []
  | .record targets => targets

/-- Whether one of the targets is the table of the record. -/
def linksTo (targets : List TableLink) (id : RecordId) : Bool :=
  targets.any fun target => target.name == id.table

/-- Whether an element that is not null is of this kind. -/
def accepts : FieldKind → Value → Bool
  | .scalar basic, value => basic.accepts value
  | .record targets, .record id => linksTo targets id
  | .record targets, .string text =>
    match RecordId.read? text with
    | some id => linksTo targets id
    | none => false
  | .record _, _ => false

end FieldKind

/-! ### Fields -/

/-- What a field holds if a create leaves it out. -/
inductive DefaultValue where
  | literal (value : Value)
  | expression (expression : Expression)

/-- A typed attribute of the records of a table. -/
structure Field where
  /-- Settled by the table that owns the field. -/
  name : Option String
  /-- The table that the field was added to. -/
  owner : Option String
  kind : FieldKind
  /-- Whether an element may be null. -/
  isOptional : Bool
  /-- Whether the field holds a list of elements. -/
  isArray : Bool
  /-- Whether no two records may have the same value. -/
  isUnique : Bool
  byDefault : Option DefaultValue
  /-- What the database computes the field from. -/
  computed : Option Expression
  /-- What must hold of a value. -/
  assertion : Option Expression
  permissions : Option Permissions
  comment : Option String
  /-- Whether a definition replaces an earlier one. -/
  overwrite : Bool
  /-- Whether the field has no type at all. -/
  isFlexible : Bool

namespace Field

/-- A field of this kind without a name, an owner or any modifier. -/
def ofKind (kind : FieldKind) : Field where
  name := none
  owner := none
  kind := kind
  isOptional := false
  isArray := false
  isUnique := false
  byDefault := none
  computed := none
  assertion := none
  permissions := none
  comment := none
  overwrite := false
  isFlexible := false

/-- Gives the field a default. A create may then leave the field out, so it becomes optional. -/
def withDefault (field : Field) (value : DefaultValue) : Field :=
  { field with byDefault := some value, isOptional := true }

/-- Makes a table the owner of the field and settles its name, unless the field has an owner
already or goes by another name. -/
def attach (field : Field) (table name : String) : Except Error Field :=
  match field.owner with
  | some owner => .error (Failure.invalidSchema (.alreadyOwned name owner table))
  | none =>
    match field.name with
    | some own =>
      if own = name then .ok { field with name := some name, owner := some table }
      else .error (Failure.invalidSchema (.misnamed own name table))
    | none => .ok { field with name := some name, owner := some table }

/-- The name of the field, empty as long as it has none. -/
def nameOrEmpty (field : Field) : String :=
  field.name.getD ""

/-- Whether a create must give the field a value. -/
def isRequired (field : Field) : Bool :=
  !field.isOptional && !field.isArray && !field.isFlexible && field.computed.isNone

/-- Whether a value may be one element of the field. -/
def acceptsElement (field : Field) : Value → Bool
  | .null => field.isOptional
  | value => field.kind.accepts value

/-- Whether a value fits the type of the field. -/
def accepts (field : Field) (value : Value) : Bool :=
  if field.isFlexible then true
  else if field.isArray then
    match value with
    | .list items => items.all field.acceptsElement
    | _ => false
  else field.acceptsElement value

end Field

end DocQuery

/-
This file holds what a schema leaves to the database: expressions, which are text that is passed
on as it is, and the rules of access to a field that may contain them.
-/

import DocQuery.Error.Basic

namespace DocQuery

/-! ### Expressions -/

/-- An expression of the database, whose text may not have been set yet. -/
structure Expression where
  text : Option String
  deriving DecidableEq

namespace Expression

/-- The expression whose text is not set. -/
def unset : Expression := ⟨none⟩

/-- The expression with this text. -/
def raw (text : String) : Expression := ⟨some text⟩

/-- The current point in time. -/
def timeNow : Expression := raw "time::now()"

/-- The seconds since the start of 1970. -/
def timeUnix : Expression := raw "time::unix()"

/-- The argument in lower case. -/
def lowercase (argument : String) : Expression := raw ("string::lowercase(" ++ argument ++ ")")

/-- Whether the expression has a text, which an empty one does not count as. -/
def isBound (expression : Expression) : Bool :=
  match expression.text with
  | some text => !text.isEmpty
  | none => false

/-- The text of an expression, which must have one. -/
def write (expression : Expression) : Except Error String :=
  match expression.text with
  | some text => if text.isEmpty then .error Failure.unboundExpression else .ok text
  | none => .error Failure.unboundExpression

end Expression

/-! ### Permissions -/

/-- What an operation on a field is allowed to do. -/
inductive Rule where
  | deny
  | allow
  /-- Allowed where the expression holds. -/
  | allowWhere (expression : Expression)
  deriving DecidableEq

/-- An operation on a field. -/
inductive Operation where
  | select
  | create
  | update
  | delete
  deriving DecidableEq

namespace Operation

/-- The keyword of an operation. -/
def keyword : Operation → String
  | .select => "select"
  | .create => "create"
  | .update => "update"
  | .delete => "delete"

end Operation

/-- The rules of the operations; one that is not set is left to the database. -/
structure Permissions where
  select : Option Rule
  create : Option Rule
  update : Option Rule
  delete : Option Rule
  deriving DecidableEq

namespace Permissions

/-- The same rule, or none, for every operation. -/
def same (rule : Option Rule) : Permissions :=
  ⟨rule, rule, rule, rule⟩

/-- Sets the rule of an operation. -/
def set (permissions : Permissions) (operation : Operation) (rule : Rule) : Permissions :=
  match operation with
  | .select => { permissions with select := some rule }
  | .create => { permissions with create := some rule }
  | .update => { permissions with update := some rule }
  | .delete => { permissions with delete := some rule }

/-- The rule of an operation. -/
def rule? (permissions : Permissions) : Operation → Option Rule
  | .select => permissions.select
  | .create => permissions.create
  | .update => permissions.update
  | .delete => permissions.delete

/-- The rules that are set, by their operations. -/
def rules (permissions : Permissions) : List (Operation × Rule) :=
  [Operation.select, .create, .update, .delete].filterMap fun operation =>
    (permissions.rule? operation).map fun rule => (operation, rule)

/-- The rule that all four operations share, if it has no expression. -/
def uniform? (permissions : Permissions) : Option Rule :=
  match permissions.select with
  | none => none
  | some (.allowWhere _) => none
  | some rule =>
    if permissions.create = some rule ∧ permissions.update = some rule ∧
        permissions.delete = some rule then some rule
    else none

end Permissions

end DocQuery

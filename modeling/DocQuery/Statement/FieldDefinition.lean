/-
This file writes the definition of a field.

The clauses come in a fixed order: name and table, type, default, computed value, assertion,
permissions and comment. A clause that the field does not use is left out, and so are permissions
without a rule. Rules that are the same for every operation and have no expression are written
once. An expression without text is an error, and the first one met decides it.
-/

import DocQuery.Statement.Literal
import DocQuery.Statement.TypeClause

namespace DocQuery

namespace Rule

/-- The text of a rule. -/
def write : Rule → Except Error String
  | .deny => .ok "NONE"
  | .allow => .ok "FULL"
  | .allowWhere expression => do
    let text ← expression.write
    return "WHERE " ++ text

end Rule

namespace Permissions

/-- The texts of rules, each behind its operation. -/
def writeRules : List (Operation × Rule) → Except Error (List String)
  | [] => .ok []
  | (operation, rule) :: rest => do
    let first ← rule.write
    let others ← writeRules rest
    return ("FOR " ++ operation.keyword ++ " " ++ first) :: others

/-- The text of permissions. -/
def write (permissions : Permissions) : Except Error String :=
  match permissions.uniform? with
  | some rule => rule.write
  | none => do
    let rules ← writeRules permissions.rules
    return String.intercalate " " rules

end Permissions

namespace DefaultValue

/-- The text of a default. -/
def write : DefaultValue → Except Error String
  | .literal value => .ok value.literal
  | .expression content => content.write

end DefaultValue

namespace Field

/-- A keyword and what is behind it, or nothing. -/
def clause {Content : Type} (keyword : String) (write : Content → Except Error String) :
    Option Content → Except Error String
  | none => .ok ""
  | some content => do
    let text ← write content
    return keyword ++ text

/-- The permissions of a field, unless they set no rule. -/
def statedPermissions (field : Field) : Option Permissions :=
  field.permissions.filter fun permissions => !permissions.rules.isEmpty

/-- What follows the type in the definition of a field. -/
def definitionTail (field : Field) : Except Error String := do
  let byDefault ← clause " DEFAULT " DefaultValue.write field.byDefault
  let computed ← clause " VALUE " Expression.write field.computed
  let assertion ← clause " ASSERT " Expression.write field.assertion
  let permissions ← clause " PERMISSIONS " Permissions.write field.statedPermissions
  let comment ← clause " COMMENT " (fun text => .ok (Text.quoted text)) field.comment
  return byDefault ++ computed ++ assertion ++ permissions ++ comment

/-- The definition of a field of a table. -/
def definition (schema : Schema) (table : String) (field : Field) : Except Error String :=
  match field.name with
  | none => .error (Failure.unsetName "field")
  | some name => do
    let type ← schema.typeClause field
    let tail ← field.definitionTail
    return "DEFINE FIELD " ++ (if field.overwrite then "OVERWRITE " else "") ++ name ++ " ON " ++
      table ++ " " ++ type.write ++ tail

end Field

end DocQuery

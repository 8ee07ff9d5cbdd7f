/-
This file holds the single failures of the library and their messages.

Each failure says what is wrong in terms of its own: which table is declared twice, which field
a query names in vain, at which statement a deployment stopped. The wording is given once, by
`Failure.message`. A failure is local when it is found before any statement is sent to a
backend, that is, when the schema or the query itself is at fault.
-/

import DocQuery.Bindings

namespace DocQuery

/-! ### What can be wrong with a schema, a statement or a result -/

/-- A schema that is not accepted. -/
inductive SchemaProblem where
  /-- Two tables have this name. -/
  | declaredTwice (table : String)
  /-- A link of a declared field leads to no table. -/
  | danglingLink (table field target : String)
  /-- A link that is followed leads to no table. -/
  | unresolvedLink (target : String)
  /-- A field that belongs to one table is added to another. -/
  | alreadyOwned (field owner table : String)
  /-- A field is registered under a name that is not its own. -/
  | misnamed (own registered table : String)
  /-- A problem in other words. -/
  | described (problem : String)

/-- A statement that is not accepted. -/
inductive StatementProblem where
  /-- No table has this name. -/
  | unknownTable (table : String)
  /-- A definition asks for a field that the table lacks. -/
  | unknownField (table field : String)
  /-- A clause of a query names a field that the table lacks. -/
  | unknownReference (clause field table : String)
  /-- A select lists no field at all. -/
  | nothingIncluded (table : String)
  /-- An update assigns no field at all. -/
  | nothingAssigned (table : String)
  /-- A problem in other words. -/
  | described (problem : String)

/-- An answer of a backend that is not what its statement implies. -/
inductive ResultProblem where
  | noResultSet
  | noRecord
  /-- A problem in other words. -/
  | described (problem : String)

/-- A value that does not fit its field, or that is missing. -/
inductive ValidationProblem where
  | typeMismatch (table field expected found : String)
  | missingField (table field : String)

/-- A failure of no particular kind. -/
inductive Complaint where
  /-- A text that is no sort direction. -/
  | direction (text : String)
  /-- A tree where a filter must stand. -/
  | notFilter (found : Json)
  /-- A branch of a filter that is no array. -/
  | notBranch (name : String)
  /-- A complaint in other words. -/
  | described (message : String)

namespace SchemaProblem

/-- The wording of a problem with a schema. -/
def message : SchemaProblem → String
  | .declaredTwice table => "table `" ++ table ++ "` is declared twice"
  | .danglingLink table field target =>
    "field `" ++ table ++ "." ++ field ++ "` references unknown table `" ++ target ++ "`"
  | .unresolvedLink target => "record field references unknown table `" ++ target ++ "`"
  | .alreadyOwned field owner table =>
    "field `" ++ field ++ "` already belongs to table `" ++ owner ++
      "` and cannot be added to `" ++ table ++ "`"
  | .misnamed own registered table =>
    "field named `" ++ own ++ "` registered as `" ++ registered ++ "` on table `" ++ table ++ "`"
  | .described problem => problem

end SchemaProblem

namespace StatementProblem

/-- The wording of a problem with a statement. -/
def message : StatementProblem → String
  | .unknownTable table => "unknown table `" ++ table ++ "`"
  | .unknownField table field => "unknown field `" ++ field ++ "` on table `" ++ table ++ "`"
  | .unknownReference clause field table =>
    clause ++ " references unknown field `" ++ field ++ "` on table `" ++ table ++ "`"
  | .nothingIncluded table => "select from `" ++ table ++ "` includes no fields"
  | .nothingAssigned table => "update of `" ++ table ++ "` assigns no fields"
  | .described problem => problem

end StatementProblem

namespace ResultProblem

/-- The wording of a problem with a result. -/
def message : ResultProblem → String
  | .noResultSet => "backend returned no result sets"
  | .noRecord => "create returned no record"
  | .described problem => problem

end ResultProblem

namespace ValidationProblem

/-- The wording of a problem with a value. -/
def message : ValidationProblem → String
  | .typeMismatch table field expected found =>
    "value for `" ++ table ++ "." ++ field ++ "` does not match type `" ++ expected ++
      "` (found " ++ found ++ ")"
  | .missingField table field => "missing required field `" ++ table ++ "." ++ field ++ "`"

end ValidationProblem

namespace Complaint

/-- The wording of a complaint. -/
def message : Complaint → String
  | .direction text => "invalid sort direction `" ++ text ++ "`; expected `asc` or `desc`"
  | .notFilter found => "filter must be a JSON object; found " ++ found.write
  | .notBranch name => "`" ++ name ++ "` branch must be an array of filters"
  | .described message => message

end Complaint

/-! ### Failures -/

/-- A single failure, without what caused it. -/
inductive Failure where
  | other (complaint : Complaint)
  /-- An error of another library: its message, and the messages of what led to it. -/
  | foreign (message : String) (sources : List String)
  /-- An error of a backend's client: its message, and the messages of what led to it. -/
  | client (message : String) (sources : List String)
  /-- A table or a field without a name. -/
  | unsetName (subject : String)
  | duplicateField (table field : String)
  | unboundExpression
  /-- A field of a kind that has no type to write. -/
  | unsupportedVariant (variant : String)
  | invalidSchema (problem : SchemaProblem)
  | invalidStatement (problem : StatementProblem)
  | invalidResult (problem : ResultProblem)
  | validation (problem : ValidationProblem)
  /-- A backend rejected a statement. -/
  | executionFailed (statement : String) (bindings : Bindings)
  /-- A deployment stopped at a statement, which may define a field. -/
  | partialDeployment (table : String) (field : Option String) (index : Nat)

namespace Failure

/-- The message of a single failure. -/
def message : Failure → String
  | .other complaint => complaint.message
  | .foreign message _ => message
  | .client message sources => String.intercalate ": " (message :: sources)
  | .unsetName subject => subject ++ " name not set"
  | .duplicateField table field =>
    "field `" ++ field ++ "` is already defined on table `" ++ table ++ "`"
  | .unboundExpression => "expression compiled before its text was set"
  | .unsupportedVariant variant => "field variant `" ++ variant ++ "` has no type keyword"
  | .invalidSchema problem => "invalid schema: " ++ problem.message
  | .invalidStatement problem => "invalid statement: " ++ problem.message
  | .invalidResult problem => "invalid result: " ++ problem.message
  | .validation problem => problem.message
  | .executionFailed statement _ => "failed to execute `" ++ statement ++ "`"
  | .partialDeployment table field index =>
    "deployment of table `" ++ table ++ "` stopped at statement " ++ Nat.repr index ++
      match field with
      | some field => " (field `" ++ field ++ "`)"
      | none => ""

/-- Whether the failure is found before any statement reaches a backend. -/
def isLocal : Failure → Bool
  | .unsetName _ | .duplicateField _ _ | .unboundExpression | .unsupportedVariant _
  | .invalidSchema _ | .invalidStatement _ | .validation _ => true
  | _ => false

end Failure

end DocQuery

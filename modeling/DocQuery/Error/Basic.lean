/-
This file holds errors: a failure together with the failures that caused it, outermost first.

`context` makes one error the cause of another. An outer error that has no cause of its own and
that nobody else holds takes the cause in place and keeps its kind; otherwise its whole text
becomes the message of a new outermost failure. In both cases the text of the result is the
outer text, a colon, and the inner text.
-/

import DocQuery.Error.Failure

namespace DocQuery

/-- A failure and the chain of its causes, the nearest first. -/
structure Error where
  failure : Failure
  causes : List Failure

namespace Error

/-- The error of a failure without a cause. -/
def ofFailure (failure : Failure) : Error :=
  ⟨failure, []⟩

instance : Coe Failure Error := ⟨ofFailure⟩

/-! ### The chain of an error -/

/-- The failures of the chain, outermost first. -/
def failures (error : Error) : List Failure :=
  error.failure :: error.causes

/-- The text of an error: the messages of its chain, outermost first. -/
def write (error : Error) : String :=
  String.intercalate ": " (error.failures.map Failure.message)

/-- The errors that a failure and the causes behind it make up, from the nearest inwards. -/
def chainOf : Failure → List Failure → List Error
  | failure, [] => [⟨failure, []⟩]
  | failure, next :: causes => ⟨failure, next :: causes⟩ :: chainOf next causes

/-- The error and, after it, what caused it, as far as that is known. -/
def chain (error : Error) : List Error :=
  chainOf error.failure error.causes

/-- The innermost error of the chain. -/
def root (error : Error) : Error :=
  ofFailure (error.causes.getLastD error.failure)

/-- Makes the error the cause of another one. Whether the other one is shared decides, together
with its own causes, if it takes the cause in place. -/
def context (error : Error) (outer : Error) (shared : Bool) : Error :=
  if shared = false ∧ outer.causes = [] then ⟨outer.failure, error.failures⟩
  else ⟨.other (.described outer.write), error.failures⟩

/-! ### What an error tells -/

/-- Whether the error was raised before any statement reached a backend. -/
def isLocal (error : Error) : Bool :=
  error.failure.isLocal

/-- Statement and bindings of the first execution failure of a chain. -/
def execution? : List Failure → Option (String × Bindings)
  | [] => none
  | .executionFailed statement bindings :: _ => some (statement, bindings)
  | _ :: rest => execution? rest

/-- The text of the statement that a backend rejected. -/
def statement? (error : Error) : Option String :=
  (execution? error.failures).map Prod.fst

/-- The bindings of the statement that a backend rejected. -/
def bindings? (error : Error) : Option Bindings :=
  (execution? error.failures).map Prod.snd

/-- The field at which a deployment stopped. -/
def failedField? (error : Error) : Option String :=
  match error.failure with
  | .partialDeployment _ field _ => field
  | _ => none

/-- The position of the statement at which a deployment stopped. -/
def statementIndex? (error : Error) : Option Nat :=
  match error.failure with
  | .partialDeployment _ _ index => some index
  | _ => none

/-- The texts of what stands behind a failure: the client's or the foreign library's own errors
if there are such, and else the chain of causes. -/
def sourcesOf : Failure → List Failure → List String
  | .client message sources, _ => String.intercalate ": " (message :: sources) :: message :: sources
  | .foreign message sources, _ => message :: sources
  | _, [] => []
  | _, next :: causes => write ⟨next, causes⟩ :: sourcesOf next causes

/-- The texts of what stands behind the error, from the nearest inwards. -/
def sources (error : Error) : List String :=
  sourcesOf error.failure error.causes

end Error

end DocQuery

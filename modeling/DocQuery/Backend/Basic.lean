/-
This file holds backends: what runs the text of statements.

A backend has a state that only it knows. Given a statement and its bindings it answers with
result sets or an error, and moves on to its next state. Every compiled statement is a single
one, so the first result set is the one that matters.
-/

import DocQuery.Statement.Compiled

namespace DocQuery

/-- The result sets that answer a statement. -/
structure Response where
  results : List (List Value)

namespace Response

/-- The response with a single result set. -/
def ofRows (rows : List Value) : Response :=
  ⟨[rows]⟩

/-- The response with a single result set that holds nothing, as definitions get it. -/
def empty : Response :=
  ofRows []

/-- The first result set, without which a response is no answer. -/
def first (response : Response) : Except Error (List Value) :=
  match response.results with
  | rows :: _ => .ok rows
  | [] => .error (Failure.invalidResult .noResultSet)

end Response

/-- What runs statements, moving from state to state. -/
structure Backend (State : Type) where
  execute : Compiled → State → Except Error Response × State

namespace Backend

variable {State : Type}

/-- Runs a statement. A rejection becomes the cause of an error that tells the statement. -/
def run (backend : Backend State) (compiled : Compiled) (state : State) :
    Except Error Response × State :=
  match backend.execute compiled state with
  | (.ok response, next) => (.ok response, next)
  | (.error error, next) =>
    (.error (error.context (Failure.executionFailed compiled.text compiled.bindings) false), next)

/-- Runs a statement and takes its first result set. -/
def fetch (backend : Backend State) (compiled : Compiled) (state : State) :
    Except Error (List Value) × State :=
  match backend.run compiled state with
  | (.ok response, next) => (response.first, next)
  | (.error error, next) => (.error error, next)

end Backend

end DocQuery

/-
This file holds the backend that answers by a script.

A script has patterns that make statements fail and a queue of responses. A statement that
contains a pattern is rejected with the message of the first such pattern and leaves the queue
alone. Any other statement gets the oldest response of the queue. When the queue is empty, a
statement that creates a record gets back an object of its bindings, and every other one an empty
result set.
-/

import DocQuery.Backend.Basic
import DocQuery.Text.Search

namespace DocQuery

/-- A pattern and the message of the statements that contain it. -/
structure FailurePattern where
  pattern : String
  message : String

/-- Responses that are still to be given, and patterns of statements to reject. -/
structure Script where
  queue : List Response
  failures : List FailurePattern

namespace Script

/-- The script that rejects nothing and has no response ready. -/
def empty : Script :=
  ⟨[], []⟩

/-- Adds a response at the end of the queue. -/
def respond (script : Script) (response : Response) : Script :=
  { script with queue := script.queue ++ [response] }

/-- Rejects every statement that contains a pattern, with a message. -/
def failOn (script : Script) (pattern message : String) : Script :=
  { script with failures := script.failures ++ [⟨pattern, message⟩] }

/-- The first pattern that a statement contains. -/
def failureOf? (script : Script) (statement : String) : Option FailurePattern :=
  script.failures.find? fun failure => Text.contains statement failure.pattern

/-- The response of a script whose queue is empty. -/
def defaultResponse (compiled : Compiled) : Response :=
  if Text.startsWith compiled.text "CREATE" then
    Response.ofRows [.object compiled.bindings.entries]
  else Response.empty

/-- The answer to a statement. -/
def reply (compiled : Compiled) (script : Script) : Except Error Response × Script :=
  match script.failureOf? compiled.text with
  | some failure => (.error (Failure.client failure.message []), script)
  | none =>
    match script.queue with
    | response :: later => (.ok response, { script with queue := later })
    | [] => (.ok (defaultResponse compiled), script)

/-- The backend whose states are scripts. -/
def backend : Backend Script := ⟨reply⟩

end Script

end DocQuery

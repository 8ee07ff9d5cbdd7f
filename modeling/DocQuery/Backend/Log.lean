/-
This file records what a backend is asked to run.

Each statement is entered with its bindings once it has been answered, together with whether the
backend rejected it. The log is read and emptied from its oldest entry on.
-/

import DocQuery.Backend.Basic
import DocQuery.Text.Search

namespace DocQuery

/-- A statement that was sent to a backend. -/
structure LogEntry where
  compiled : Compiled
  rejected : Bool

/-- The statements that were sent, oldest first. -/
structure Log where
  entries : List LogEntry

namespace Log

/-- The log without entries. -/
def empty : Log := ⟨[]⟩

/-- Enters a statement. -/
def record (log : Log) (entry : LogEntry) : Log :=
  ⟨log.entries ++ [entry]⟩

/-- The texts of the statements. -/
def statements (log : Log) : List String :=
  log.entries.map fun entry => entry.compiled.text

/-- The number of statements. -/
def size (log : Log) : Nat :=
  log.entries.length

/-- Whether no statement was sent. -/
def isEmpty (log : Log) : Bool :=
  log.entries.isEmpty

/-- The number of statements that start in a given way. -/
def countStarting (log : Log) (beginning : String) : Nat :=
  log.statements.countP fun statement => Text.startsWith statement beginning

/-- The number of statements that were rejected. -/
def rejections (log : Log) : Nat :=
  log.entries.countP LogEntry.rejected

/-- The oldest entry and the log without it. -/
def pop (log : Log) : Option LogEntry × Log :=
  match log.entries with
  | [] => (none, log)
  | entry :: later => (some entry, ⟨later⟩)

end Log

namespace Backend

/-- The backend that also records every statement. -/
def logged {State : Type} (backend : Backend State) : Backend (State × Log) where
  execute compiled state :=
    match backend.execute compiled state.1 with
    | (.ok response, next) => (.ok response, (next, state.2.record ⟨compiled, false⟩))
    | (.error error, next) => (.error error, (next, state.2.record ⟨compiled, true⟩))

end Backend

end DocQuery

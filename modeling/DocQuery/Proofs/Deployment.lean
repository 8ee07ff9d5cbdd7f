/-
This file proves what a local error of a deployment tells about the backend.

A local error is meant to say that nothing was sent. The deployment of one table keeps to that,
since it compiles all definitions of the table first. The deployment of a database compiles one
table after the other, so the definitions of the tables in front of the one that fails have been
sent by then. What holds is that the failing table is the first exactly if nothing was sent, and
that local errors never follow a statement exactly if no table but the first can be the one that
fails.
-/

import DocQuery.Backend.Log
import DocQuery.Backend.Script
import DocQuery.Database
import DocQuery.Proofs.LocalErrors

namespace DocQuery

variable {State : Type}

/-! ### Sending the definitions of a table -/

/-- The entries of statements that were all accepted. -/
def accepted (compiled : List (Statement × Compiled)) : List LogEntry :=
  compiled.map fun entry => ⟨entry.2, false⟩

/-- A recording backend enters every statement, whether it is accepted or rejected. -/
theorem Backend.run_logged (backend : Backend State) (compiled : Compiled)
    (state : State × Log) :
    (∃ response next, backend.logged.run compiled state =
      (.ok response, (next, state.2.record ⟨compiled, false⟩))) ∨
    ∃ error next, backend.logged.run compiled state =
      (.error error, (next, state.2.record ⟨compiled, true⟩)) := by
  cases answer : backend.execute compiled state.1 with
  | mk result next =>
    cases result with
    | ok response => exact .inl ⟨response, next, by simp only [run, logged, answer]⟩
    | error error => exact .inr ⟨_, next, by simp only [run, logged, answer]; rfl⟩

namespace TableHandle

/-- Sending either gets through all statements or ends with an error that is not local. -/
theorem submitAll_logged (backend : Backend State) (table : String) (index : Nat)
    (compiled : List (Statement × Compiled)) (state : State × Log) :
    (∃ next log, submitAll backend.logged table index compiled state = (.ok (), (next, log)) ∧
      log.entries = state.2.entries ++ accepted compiled) ∨
    ∃ error final, submitAll backend.logged table index compiled state = (.error error, final) ∧
      error.isLocal = false := by
  induction compiled generalizing index state with
  | nil => exact .inl ⟨state.1, state.2, rfl, (List.append_nil _).symm⟩
  | cons entry rest inductionHypothesis =>
    obtain ⟨statement, compiled⟩ := entry
    obtain ⟨response, next, accepts⟩ | ⟨error, next, rejects⟩ :=
      backend.run_logged compiled state
    · rw [submitAll, accepts]
      obtain ⟨last, log, sent, entries⟩ | stopped :=
        inductionHypothesis (index + 1) (next, state.2.record ⟨compiled, false⟩)
      · refine .inl ⟨last, log, sent, ?_⟩
        rw [entries]
        show (state.2.entries ++ [_]) ++ accepted rest = state.2.entries ++ _ :: accepted rest
        rw [List.append_assoc, List.singleton_append]
      · exact .inr stopped
    · rw [submitAll, rejects]
      exact .inr ⟨_, _, rfl, rfl⟩

/-- The deployment of a table either fails to compile it and sends nothing, or sends all of its
definitions, or ends with an error that is not local. -/
theorem deploy_logged (handle : TableHandle) (backend : Backend State) (state : State × Log) :
    (∃ error, compileAll handle.database (Statement.definitions handle.table) = .error error ∧
      handle.deploy backend.logged state = (.error error, state)) ∨
    ∃ compiled, compileAll handle.database (Statement.definitions handle.table) = .ok compiled ∧
      ((∃ next log, handle.deploy backend.logged state = (.ok (), (next, log)) ∧
        log.entries = state.2.entries ++ accepted compiled) ∨
      ∃ error final, handle.deploy backend.logged state = (.error error, final) ∧
        error.isLocal = false) := by
  unfold deploy
  cases compileAll handle.database (Statement.definitions handle.table) with
  | error error => exact .inl ⟨error, rfl, rfl⟩
  | ok compiled =>
    exact .inr ⟨compiled, rfl, submitAll_logged backend handle.table.name 0 compiled state⟩

theorem compileAll_failsLocally (database : Database) (statements : List Statement) :
    FailsLocally (compileAll database statements) := by
  induction statements with
  | nil => exact .ok _
  | cons statement rest inductionHypothesis =>
    have first := statement.compile_failsLocally database.schema
    unfold compileAll Database.compile
    split
    · rename_i error failed
      exact .error (first error failed)
    · split
      · rename_i error failed
        exact .error (inductionHypothesis error failed)
      · exact .ok _

/-- A table that compiles has a statement to send, the definition of the table itself. -/
theorem ne_nil_of_compileAll {database : Database} {table : Table}
    {compiled : List (Statement × Compiled)}
    (compiles : compileAll database (Statement.definitions table) = .ok compiled) :
    compiled ≠ [] := by
  rintro rfl
  unfold Statement.definitions compileAll at compiles
  split at compiles
  · cases compiles
  · split at compiles
    · cases compiles
    · cases compiles

end TableHandle

/-! ### Sending the definitions of a database -/

namespace Database

/-- The definitions of a table can all be compiled. -/
def Deployable (database : Database) (table : Table) : Prop :=
  ∃ compiled, TableHandle.compileAll database (Statement.definitions table) = .ok compiled

theorem not_deployable {database : Database} {table : Table} {error : Error}
    (stops : TableHandle.compileAll database (Statement.definitions table) = .error error) :
    ¬ database.Deployable table := by
  rintro ⟨compiled, compiles⟩
  rw [stops] at compiles
  cases compiles

/-- The entries that come of deploying tables, one after the other, when each of their
statements is accepted. -/
inductive Sent (database : Database) : List Table → List LogEntry → Prop where
  | nil : Sent database [] []
  | cons {table : Table} {rest : List Table} {compiled : List (Statement × Compiled)}
      {later : List LogEntry}
      (compiles : TableHandle.compileAll database (Statement.definitions table) = .ok compiled)
      (sent : Sent database rest later) :
      Sent database (table :: rest) (accepted compiled ++ later)

namespace Sent

variable {database : Database} {tables : List Table} {entries : List LogEntry}

theorem deployable (sent : database.Sent tables entries) :
    ∀ table ∈ tables, database.Deployable table := by
  induction sent with
  | nil =>
    intro table member
    cases member
  | cons compiles _ inductionHypothesis =>
    intro table member
    cases member with
    | head => exact ⟨_, compiles⟩
    | tail _ later => exact inductionHypothesis table later

theorem eq_nil (sent : database.Sent tables entries) (nothing : entries = []) : tables = [] := by
  cases sent with
  | nil => rfl
  | cons compiles later =>
    have first : accepted _ = [] := (List.append_eq_nil_iff.mp nothing).1
    exact absurd (List.map_eq_nil_iff.mp first) (TableHandle.ne_nil_of_compileAll compiles)

/-- A log that is the same afterwards has seen the deployment of no table. -/
theorem eq_nil_of_unchanged (sent : database.Sent tables entries) {log final : Log}
    (grown : final.entries = log.entries ++ entries) (unchanged : final = log) : tables = [] := by
  rw [unchanged, List.self_eq_append_right] at grown
  exact sent.eq_nil grown

end Sent

/-- A local error of a deployment comes from the first table that cannot be compiled, and the
tables before it have been sent. -/
theorem deployAll_local_error (database : Database) (backend : Backend State)
    (tables : List Table) {state final : State × Log} {error : Error}
    (failed : database.deployAll backend.logged tables state = (.error error, final))
    (isLocal : error.isLocal = true) :
    ∃ before table after sent, tables = before ++ table :: after ∧
      TableHandle.compileAll database (Statement.definitions table) = .error error ∧
      database.Sent before sent ∧ final.2.entries = state.2.entries ++ sent ∧
      (before = [] → final = state) := by
  induction tables generalizing state with
  | nil => cases failed
  | cons table rest inductionHypothesis =>
    rw [deployAll] at failed
    obtain ⟨_, stops, deployed⟩ | ⟨compiled, compiles, ⟨next, log, deployed, entries⟩ |
        ⟨other, last, deployed, notLocal⟩⟩ :=
      TableHandle.deploy_logged ⟨database, table⟩ backend state
    · rw [deployed] at failed
      cases failed
      exact ⟨[], table, rest, [], rfl, stops, .nil, (List.append_nil _).symm, fun _ => rfl⟩
    · rw [deployed] at failed
      obtain ⟨before, failing, after, sent, parts, stops, sentBefore, grown, _⟩ :=
        inductionHypothesis failed
      refine ⟨table :: before, failing, after, accepted compiled ++ sent, ?_, stops,
        .cons compiles sentBefore, ?_, ?_⟩
      · rw [parts, List.cons_append]
      · rw [grown, entries, List.append_assoc]
      · intro empty
        cases empty
    · rw [deployed] at failed
      cases failed
      rw [notLocal] at isLocal
      cases isLocal

/-! ### Deploying to a backend that accepts everything -/

theorem submitAll_emptyScript (table : String) (index : Nat)
    (compiled : List (Statement × Compiled)) (log : Log) :
    ∃ last, TableHandle.submitAll Script.backend.logged table index compiled
      (Script.empty, log) = (.ok (), (Script.empty, last)) := by
  induction compiled generalizing index log with
  | nil => exact ⟨log, rfl⟩
  | cons entry rest inductionHypothesis =>
    exact inductionHypothesis (index + 1) (log.record ⟨entry.2, false⟩)

/-- Only what cannot be compiled stops a deployment to a script that rejects nothing. -/
theorem deployAll_emptyScript (database : Database) (tables : List Table) (log : Log) :
    (∃ final, database.deployAll Script.backend.logged tables (Script.empty, log) =
      (.ok (), final) ∧ ∀ table ∈ tables, database.Deployable table) ∨
    ∃ error final, database.deployAll Script.backend.logged tables (Script.empty, log) =
      (.error error, final) ∧ error.isLocal = true := by
  induction tables generalizing log with
  | nil =>
    refine .inl ⟨_, rfl, ?_⟩
    intro table member
    cases member
  | cons table rest inductionHypothesis =>
    have localError := TableHandle.compileAll_failsLocally database (Statement.definitions table)
    rw [deployAll, TableHandle.deploy]
    cases compiles : TableHandle.compileAll database (Statement.definitions table) with
    | error error => exact .inr ⟨error, _, rfl, localError error compiles⟩
    | ok compiled =>
      obtain ⟨last, sent⟩ := submitAll_emptyScript table.name 0 compiled log
      simp only [sent]
      obtain ⟨final, deployed, others⟩ | stopped := inductionHypothesis last
      · exact .inl ⟨final, deployed, List.forall_mem_cons.mpr ⟨⟨compiled, compiles⟩, others⟩⟩
      · exact .inr stopped

/-! ### What a local error tells -/

/-- A local error of a deployment means that no statement was sent. -/
def LocalErrorSendsNothing (database : Database) (backend : Backend State) : Prop :=
  ∀ (state final : State × Log) (error : Error),
    database.deploy backend.logged state = (.error error, final) → error.isLocal = true →
      final.2 = state.2

/-- A local error of a deployment tells that a table cannot be compiled and that exactly the
definitions of the tables before it were sent, so that the backend is as it was if and only if the
table is the first one. That local errors come with nothing sent, whatever the script and the log,
holds of a database if and only if all tables can be compiled as soon as the first one can. -/
theorem deploy_untouched_iff (database : Database) :
    (∀ (State : Type) (backend : Backend State) (state final : State × Log) (error : Error),
      database.deploy backend.logged state = (.error error, final) → error.isLocal = true →
        ∃ before table after sent,
          database.schema.tables.items = before ++ table :: after ∧
          TableHandle.compileAll database (Statement.definitions table) = .error error ∧
          database.Sent before sent ∧ final.2.entries = state.2.entries ++ sent ∧
          (final.2 = state.2 ↔ before = []) ∧ (final = state ↔ before = [])) ∧
    (database.LocalErrorSendsNothing Script.backend ↔
      ((∀ table ∈ database.schema.tables.items.head?, database.Deployable table) →
        ∀ table ∈ database.schema.tables.items, database.Deployable table)) := by
  constructor
  · intro State backend state final error failed isLocal
    obtain ⟨before, table, after, sent, parts, stops, sentBefore, grown, unmoved⟩ :=
      deployAll_local_error database backend _ failed isLocal
    have first : final.2 = state.2 → before = [] := sentBefore.eq_nil_of_unchanged grown
    exact ⟨before, table, after, sent, parts, stops, sentBefore, grown,
      ⟨first, fun none => congrArg Prod.snd (unmoved none)⟩,
      ⟨fun same => first (congrArg Prod.snd same), unmoved⟩⟩
  constructor
  · intro quiet firstCompiles
    obtain ⟨final, deployed, compile⟩ | ⟨error, final, failed, isLocal⟩ :=
      deployAll_emptyScript database database.schema.tables.items Log.empty
    · exact compile
    · -- Nothing was sent, so the table that fails is the first one, which does not.
      obtain ⟨before, table, after, sent, parts, stops, sentBefore, grown, _⟩ :=
        deployAll_local_error database Script.backend _ failed isLocal
      have first : before = [] :=
        sentBefore.eq_nil_of_unchanged grown (quiet _ _ error failed isLocal)
      rw [parts, first, List.nil_append] at firstCompiles
      exact absurd (firstCompiles table rfl) (not_deployable stops)
  · intro compile state final error failed isLocal
    obtain ⟨before, table, after, sent, parts, stops, sentBefore, grown, unmoved⟩ :=
      deployAll_local_error database Script.backend _ failed isLocal
    cases before with
    | nil => exact congrArg Prod.snd (unmoved rfl)
    | cons first others =>
      -- The first table was sent, so all tables compile, also the one that fails.
      rw [parts] at compile
      have firstCompiles : ∀ table ∈ (first :: others ++ table :: after).head?,
          database.Deployable table := by
        rintro _ ⟨⟩
        exact sentBefore.deployable first List.mem_cons_self
      have member : table ∈ first :: others ++ table :: after :=
        List.mem_append_right _ List.mem_cons_self
      exact absurd (compile firstCompiles table member) (not_deployable stops)

/-- Two tables, of which the second has a field whose assertion was never set. -/
def secondUnbound : Except Error Database := do
  let user ← Table.ofFields "User" [("name", Field.ofKind (.scalar .string))]
  let post ← Table.ofFields "Post"
    [("title", { Field.ofKind (.scalar .string) with assertion := some Expression.unset })]
  build [user, post] Options.unset

theorem deploy_secondUnbound :
    ∃ database error final, secondUnbound = .ok database ∧
      database.deploy Script.backend.logged (Script.empty, Log.empty) = (.error error, final) ∧
      error.isLocal = true ∧
      final.2.statements = ["DEFINE TABLE User SCHEMAFULL PERMISSIONS NONE;",
        "DEFINE FIELD name ON User TYPE string;"] := by
  refine ⟨_, _, _, rfl, rfl, rfl, ?_⟩
  decide

end Database

end DocQuery

/-
This file proves that a batch of creates is a sequence of independent attempts.

A batch goes on whatever becomes of a record, so the batch of one list after another is the one
batch after the other, and a record is created in the state that the records before it have left.
Whether it is sent, and as what, is decided before the backend is asked, and depends on the record
alone. Where a script has no response ready, no statement changes the script, so the result depends
on nothing but the record and the patterns either: a create gets its own bindings back, which are
its content.
-/

import DocQuery.Proofs.ActionErrors
import DocQuery.Proofs.Losslessness

namespace DocQuery

variable {State : Type}

/-! ### Batches one after the other -/

namespace TableHandle

theorem createMany_cons (handle : TableHandle) (backend : Backend State) (query : Create)
    (rest : List Create) (state : State) :
    handle.createMany backend (query :: rest) state =
      ((handle.create backend query state).1 ::
          (handle.createMany backend rest (handle.create backend query state).2).1,
        (handle.createMany backend rest (handle.create backend query state).2).2) := rfl

theorem createMany_append (handle : TableHandle) (backend : Backend State)
    (earlier later : List Create) (state : State) :
    handle.createMany backend (earlier ++ later) state =
      ((handle.createMany backend earlier state).1 ++
          (handle.createMany backend later (handle.createMany backend earlier state).2).1,
        (handle.createMany backend later (handle.createMany backend earlier state).2).2) := by
  induction earlier generalizing state with
  | nil => rfl
  | cons query rest inductionHypothesis =>
    rw [List.cons_append, createMany_cons, inductionHypothesis, createMany_cons, List.cons_append]

theorem length_createMany (handle : TableHandle) (backend : Backend State)
    (queries : List Create) (state : State) :
    (handle.createMany backend queries state).1.length = queries.length := by
  induction queries generalizing state with
  | nil => rfl
  | cons query rest inductionHypothesis =>
    rw [createMany_cons, List.length_cons, List.length_cons, inductionHypothesis]

/-- The result of a record is that of creating it when the records before it have been. -/
theorem createMany_getElem? (handle : TableHandle) (backend : Backend State)
    (earlier later : List Create) (query : Create) (state : State) :
    (handle.createMany backend (earlier ++ query :: later) state).1[earlier.length]? =
      some (handle.create backend query (handle.createMany backend earlier state).2).1 := by
  rw [createMany_append, createMany_cons,
    List.getElem?_append_right (length_createMany handle backend earlier state).le,
    length_createMany, Nat.sub_self]
  rfl

end TableHandle

/-! ### What is sent -/

/-- Being recorded makes no difference to an answer. -/
theorem Backend.execute_logged (backend : Backend State) (compiled : Compiled)
    (state : State × Log) :
    backend.logged.execute compiled state =
      ((backend.execute compiled state.1).1, ((backend.execute compiled state.1).2,
        state.2.record ⟨compiled, !(backend.execute compiled state.1).1.isOk⟩)) := by
  rcases answer : backend.execute compiled state.1 with ⟨error | response, next⟩
  · simp only [logged, answer]
    rfl
  · simp only [logged, answer]
    rfl

theorem Backend.run_logged_eq (backend : Backend State) (compiled : Compiled) (state : State)
    (log : Log) :
    ∃ final, backend.logged.run compiled (state, log) =
      ((backend.run compiled state).1, ((backend.execute compiled state).2, final)) := by
  rw [run, run, execute_logged]
  rcases backend.execute compiled state with ⟨error | response, next⟩
  · exact ⟨_, rfl⟩
  · exact ⟨_, rfl⟩

/-- The state after statements have been sent whatever the answers are. -/
def Backend.sendAll (backend : Backend State) (statements : List Compiled) (state : State) :
    State :=
  statements.foldl (fun state compiled => (backend.execute compiled state).2) state

theorem Backend.sendAll_cons (backend : Backend State) (compiled : Compiled)
    (rest : List Compiled) (state : State) :
    backend.sendAll (compiled :: rest) state =
      backend.sendAll rest (backend.execute compiled state).2 := rfl

/-- What was sent, oldest first, without whether it was rejected. -/
def Log.sent (log : Log) : List Compiled :=
  log.entries.map LogEntry.compiled

theorem Log.sent_record (log : Log) (entry : LogEntry) :
    (log.record entry).sent = log.sent ++ [entry.compiled] := by
  rw [sent, sent, record, List.map_append]
  rfl

/-- Statements are entered into the log whatever the backend says to them. -/
theorem Backend.sent_sendAll (backend : Backend State) (statements : List Compiled)
    (state : State × Log) :
    (backend.logged.sendAll statements state).2.sent = state.2.sent ++ statements := by
  induction statements generalizing state with
  | nil => exact (List.append_nil _).symm
  | cons compiled rest inductionHypothesis =>
    rw [sendAll_cons, inductionHypothesis, execute_logged, Log.sent_record, List.append_assoc,
      List.singleton_append]

namespace TableHandle

theorem fetch_snd (backend : Backend State) (compiled : Except Error Compiled) (state : State) :
    (fetch backend compiled state).2 = backend.sendAll compiled.toOption.toList state := by
  cases compiled with
  | error error => rfl
  | ok compiled =>
    show (backend.fetch compiled state).2 = (backend.execute compiled state).2
    rw [Backend.fetch, Backend.run]
    rcases backend.execute compiled state with ⟨error | response, next⟩ <;> rfl

theorem create_snd (handle : TableHandle) (backend : Backend State) (query : Create)
    (state : State) :
    (handle.create backend query state).2 =
      backend.sendAll (handle.compileCreate query).toOption.toList state :=
  fetch_snd backend (handle.compileCreate query) state

/-- The statements of those records that have one, in the order of the records. -/
def statementsOf (handle : TableHandle) (queries : List Create) : List Compiled :=
  queries.filterMap fun query => (handle.compileCreate query).toOption

/-- A batch sends the statements of its records. -/
theorem createMany_snd (handle : TableHandle) (backend : Backend State) (queries : List Create)
    (state : State) :
    (handle.createMany backend queries state).2 =
      backend.sendAll (handle.statementsOf queries) state := by
  induction queries generalizing state with
  | nil => rfl
  | cons query rest inductionHypothesis =>
    rw [createMany_cons, inductionHypothesis, create_snd, statementsOf, statementsOf,
      List.filterMap_cons]
    cases handle.compileCreate query <;> rfl

/-- A record and what comes of it at one place of a batch: it fails its check and that is all, or
it sends its own statement and nothing else. -/
structure Attempts (handle : TableHandle) (backend : Backend State) (query : Create)
    (before : State × Log) (result : Except Error Value) (after : State × Log) : Prop where
  created : handle.create backend.logged query before = (result, after)
  refused : ∀ error, handle.table.checkCreate query = .error error →
    result = .error error ∧ error.isLocal = true ∧ after = before
  submitted : handle.table.checkCreate query = .ok () →
    ∃ compiled, handle.compileCreate query = .ok compiled ∧
      after.2.sent = before.2.sent ++ [compiled]

theorem compileCreate_iff {handle : TableHandle} (named : handle.table.name ≠ "")
    (query : Create) :
    (∃ compiled, handle.compileCreate query = .ok compiled) ↔
      handle.table.checkCreate query = .ok () :=
  (Request.create query).compiles_iff_passes named

theorem compileCreate_of_refused {handle : TableHandle} {query : Create} {error : Error}
    (refused : handle.table.checkCreate query = .error error) :
    handle.compileCreate query = .error error := by
  rw [compileCreate, refused]
  rfl

theorem create_of_error {handle : TableHandle} {query : Create} {error : Error}
    (fails : handle.compileCreate query = .error error) (backend : Backend State)
    (state : State) : handle.create backend query state = (.error error, state) := by
  rw [create, fails]
  rfl

theorem attempts {handle : TableHandle} (named : handle.table.name ≠ "")
    (backend : Backend State) (query : Create) (before : State × Log) :
    ∃ result after, handle.Attempts backend query before result after := by
  refine ⟨(handle.create backend.logged query before).1,
    (handle.create backend.logged query before).2, rfl, fun error refused => ?_, fun passes => ?_⟩
  · have isLocal := (handle.table.checkCreate_decides query).failsLocally error refused
    rw [create_of_error (compileCreate_of_refused refused)]
    exact ⟨rfl, isLocal, rfl⟩
  · obtain ⟨compiled, compiles⟩ := (compileCreate_iff named query).mpr passes
    refine ⟨compiled, compiles, ?_⟩
    rw [create_snd, Backend.sent_sendAll, compiles]
    rfl

end TableHandle

/-! ### Scripts without a response -/

/-- The script that rejects what contains a pattern and has no response ready. -/
def Script.ofFailures (failures : List FailurePattern) : Script :=
  ⟨[], failures⟩

theorem Script.execute_ofFailures (failures : List FailurePattern) (compiled : Compiled) :
    (backend.execute compiled (ofFailures failures)).2 = ofFailures failures := by
  change (reply compiled (ofFailures failures)).2 = _
  unfold reply
  split <;> rfl

/-- Whether a statement contains one of the patterns. -/
def FailurePattern.occursIn (failures : List FailurePattern) (compiled : Compiled) : Bool :=
  failures.any fun failure => Text.contains compiled.text failure.pattern

/-- A statement contains none of the patterns if the characters of none stand in it in one piece. -/
theorem FailurePattern.occursIn_eq_false_iff {failures : List FailurePattern}
    {compiled : Compiled} :
    occursIn failures compiled = false ↔
      ∀ failure ∈ failures, ¬ failure.pattern.toList <:+: compiled.text.toList := by
  rw [occursIn, List.any_eq_false]
  simp only [Text.contains, Text.occursIn_iff]

theorem Script.failureOf?_eq_none_iff (script : Script) (compiled : Compiled) :
    script.failureOf? compiled.text = none ↔
      FailurePattern.occursIn script.failures compiled = false := by
  rw [failureOf?, List.find?_eq_none, FailurePattern.occursIn, List.any_eq_false]

/-- The response to a statement that contains no pattern. -/
theorem Script.run_ofFailures_of_free {failures : List FailurePattern} {compiled : Compiled}
    (free : FailurePattern.occursIn failures compiled = false) :
    backend.run compiled (ofFailures failures) =
      (.ok (defaultResponse compiled), ofFailures failures) := by
  have none := ((ofFailures failures).failureOf?_eq_none_iff compiled).mpr free
  have answered : backend.execute compiled (ofFailures failures) =
      (.ok (defaultResponse compiled), ofFailures failures) := by
    change reply compiled (ofFailures failures) = _
    rw [reply, none]
    rfl
  rw [Backend.run, answered]

/-- The statement of a create binds its content and starts as the script expects of a create. -/
theorem Statement.compile_create_eq_ok {schema : Schema} {table : String} {query : Create}
    {compiled : Compiled} (named : table ≠ "")
    (compiles : (Statement.create table query).compile schema = .ok compiled) :
    compiled.bindings = query.content ∧ Text.startsWith compiled.text "CREATE" = true := by
  rw [compile] at compiles
  split at compiles
  · cases compiles
  · rename_i text bindings serialized
    cases compiles
    obtain ⟨⟨rest, written⟩, bound⟩ := Create.serialize_eq_ok named serialized
    refine ⟨bound.trans query.content.ofList_entries, ?_⟩
    rw [Text.startsWith, List.isPrefixOf_iff_prefix, written]
    have keyword : "CREATE ONLY " = "CREATE" ++ " ONLY " := rfl
    simp only [keyword, String.toList_append, List.append_assoc, List.prefix_append]

namespace TableHandle

/-- What creating a record gives where the script has no response ready. -/
def attempt (handle : TableHandle) (failures : List FailurePattern) (query : Create) :
    Except Error Value :=
  (handle.create Script.backend query (Script.ofFailures failures)).1

theorem create_ofFailures (handle : TableHandle) (failures : List FailurePattern)
    (query : Create) (log : Log) :
    ∃ final, handle.create Script.backend.logged query (Script.ofFailures failures, log) =
      (handle.attempt failures query, (Script.ofFailures failures, final)) := by
  rw [attempt, create, create]
  cases handle.compileCreate query with
  | error error => exact ⟨log, rfl⟩
  | ok compiled =>
    obtain ⟨final, recorded⟩ :=
      Script.backend.run_logged_eq compiled (Script.ofFailures failures) log
    rw [Script.execute_ofFailures] at recorded
    refine ⟨final, ?_⟩
    rw [fetch, fetch, Backend.fetch, Backend.fetch, recorded]
    obtain ⟨error | response, next⟩ := Script.backend.run compiled (Script.ofFailures failures)
    · rfl
    · rfl

/-- No record changes the script, so each is created as if it were alone. -/
theorem createMany_ofFailures (handle : TableHandle) (failures : List FailurePattern)
    (queries : List Create) (log : Log) :
    ∃ final, handle.createMany Script.backend.logged queries (Script.ofFailures failures, log) =
      (queries.map (handle.attempt failures), (Script.ofFailures failures, final)) := by
  induction queries generalizing log with
  | nil => exact ⟨log, rfl⟩
  | cons query rest inductionHypothesis =>
    obtain ⟨next, created⟩ := handle.create_ofFailures failures query log
    obtain ⟨final, others⟩ := inductionHypothesis next
    refine ⟨final, ?_⟩
    rw [createMany_cons, created, others, List.map_cons]

theorem attempt_eq_ok {handle : TableHandle} (named : handle.table.name ≠ "")
    {failures : List FailurePattern} {query : Create} {compiled : Compiled}
    (compiles : handle.compileCreate query = .ok compiled)
    (free : FailurePattern.occursIn failures compiled = false) :
    handle.attempt failures query = .ok (.object query.content.entries) := by
  have passes := (compileCreate_iff named query).mp ⟨compiled, compiles⟩
  have written : (Statement.create handle.table.name query).compile handle.database.schema =
      .ok compiled := by
    rw [← compiles, compileCreate, passes]
    rfl
  obtain ⟨bindings, starts⟩ := Statement.compile_create_eq_ok named written
  have echoed : Script.defaultResponse compiled = .ofRows [.object query.content.entries] := by
    rw [Script.defaultResponse, if_pos starts, bindings]
  rw [attempt, create, compiles, fetch, Backend.fetch, Script.run_ofFailures_of_free free, echoed]
  rfl

/-! ### Batches of creates -/

/-- A batch of creates is a sequence of independent attempts. Whatever the backend does, there is
one result for each record, in order. The statements sent are those of the records that pass their
check, each compiled from its record alone, in order. The result of a record is that of creating
it when the records before it have been, where a record that fails its check has the error of the
check, which is local, and sends nothing. Where a script has no response ready, the result of a
record depends on the record and the patterns alone, so that the results of one list after
another are those of the one after those of the other, and a record that passes its check and
whose statement contains no pattern comes back as the object of its content. -/
theorem createMany_independent {tables : List Table} {defaults : Options} {database : Database}
    (built : Database.build tables defaults = .ok database) {name : String} {handle : TableHandle}
    (found : database.table name = .ok handle) :
    (∀ query : Create, (∃ compiled, handle.compileCreate query = .ok compiled) ↔
      handle.table.checkCreate query = .ok ()) ∧
    (∀ (State : Type) (backend : Backend State) (queries : List Create) (state : State × Log),
      (handle.createMany backend.logged queries state).1.length = queries.length ∧
      (handle.createMany backend.logged queries state).2.2.sent =
        state.2.sent ++ handle.statementsOf queries ∧
      ∀ earlier query later, queries = earlier ++ query :: later →
        ∃ result after,
          handle.Attempts backend query (handle.createMany backend.logged earlier state).2
            result after ∧
          (handle.createMany backend.logged queries state).1[earlier.length]? = some result) ∧
    ∀ failures : List FailurePattern,
      (∀ queries log,
        (handle.createMany Script.backend.logged queries (Script.ofFailures failures, log)).1 =
          queries.map (handle.attempt failures)) ∧
      (∀ earlier later log first second,
        (handle.createMany Script.backend.logged (earlier ++ later)
            (Script.ofFailures failures, log)).1 =
          (handle.createMany Script.backend.logged earlier
              (Script.ofFailures failures, first)).1 ++
            (handle.createMany Script.backend.logged later
              (Script.ofFailures failures, second)).1) ∧
      ∀ query compiled, handle.compileCreate query = .ok compiled →
        (∀ failure ∈ failures, ¬ failure.pattern.toList <:+: compiled.text.toList) →
          handle.attempt failures query = .ok (.object query.content.entries) := by
  have named := Database.name_ne_of_table built found
  have alone (failures : List FailurePattern) (queries : List Create) (log : Log) :
      (handle.createMany Script.backend.logged queries (Script.ofFailures failures, log)).1 =
        queries.map (handle.attempt failures) := by
    obtain ⟨final, created⟩ := handle.createMany_ofFailures failures queries log
    rw [created]
  refine ⟨compileCreate_iff named, fun State backend queries state => ⟨?_, ?_, ?_⟩,
    fun failures => ⟨alone failures, ?_, ?_⟩⟩
  · exact length_createMany handle backend.logged queries state
  · rw [createMany_snd, Backend.sent_sendAll]
  · rintro earlier query later rfl
    obtain ⟨result, after, attempted⟩ :=
      attempts named backend query (handle.createMany backend.logged earlier state).2
    refine ⟨result, after, attempted, ?_⟩
    rw [createMany_getElem?, attempted.created]
  · intro earlier later log first second
    rw [alone, alone, alone, List.map_append]
  · intro query compiled compiles free
    exact attempt_eq_ok named compiles (FailurePattern.occursIn_eq_false_iff.mpr free)

/-- A person without an age is refused between two that are created. -/
theorem createMany_independent_persons :
    Database.build [persons] Options.unset = .ok personsDatabase ∧
    personsDatabase.table "Person" = .ok ⟨personsDatabase, persons⟩ ∧
    (createMany ⟨personsDatabase, persons⟩ Script.backend.logged
      [⟨none, Dictionary.ofList [("age", .int 3)]⟩, ⟨none, Dictionary.empty⟩,
        ⟨none, Dictionary.ofList [("id", .int 1), ("age", .int 4)]⟩]
      (Script.empty, Log.empty)).1 =
      [.ok (.object [("age", .int 3)]),
        .error (Failure.validation (.missingField "Person" "age")),
        .ok (.object [("id", .int 1), ("age", .int 4)])] := by
  have built : Database.build [persons] Options.unset = .ok personsDatabase := rfl
  have found : personsDatabase.table "Person" = .ok ⟨personsDatabase, persons⟩ := rfl
  obtain ⟨compiles, -, scripts⟩ := createMany_independent built found
  obtain ⟨alone, -, accepted⟩ := scripts []
  have created (query : Create) (passes : persons.checkCreate query = .ok ()) :
      attempt ⟨personsDatabase, persons⟩ [] query = .ok (.object query.content.entries) := by
    obtain ⟨compiled, compiled_eq⟩ := (compiles query).mpr passes
    exact accepted query compiled compiled_eq (List.forall_mem_nil _)
  refine ⟨built, found, (alone _ Log.empty).trans ?_⟩
  rw [List.map_cons, List.map_cons, List.map_cons,
    created ⟨none, Dictionary.ofList [("age", .int 3)]⟩ rfl,
    created ⟨none, Dictionary.ofList [("id", .int 1), ("age", .int 4)]⟩ rfl]
  rfl

end TableHandle

end DocQuery

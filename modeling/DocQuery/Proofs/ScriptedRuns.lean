/-
This file proves that a run against a script loses no response and no statement.

A run is a list of calls, some of which prepare the script while others use tables. What a call
does to the script and to the log depends on what it sends, and that is known without the answers,
as the failure patterns in force are enough to tell where a deployment stops. So a run is a list of
events: a response is queued, a pattern is forbidden, or a statement is sent. For each event the
accounts are kept of what has been queued, delivered, forbidden and entered, and the accounts of
events one after another add up.
-/

import DocQuery.Proofs.BatchCreation

namespace DocQuery

/-! ### Events -/

/-- What happens to a script, where statements are told in some way. -/
inductive Event (Sent : Type) where
  | queued (response : Response)
  | forbidden (failure : FailurePattern)
  | sent (statement : Sent)

namespace Event

variable {Sent Other : Type}

/-- Tells the statement in another way. -/
def map (tell : Sent → Other) : Event Sent → Event Other
  | queued response => queued response
  | forbidden failure => forbidden failure
  | sent statement => sent (tell statement)

/-- The response that is queued. -/
def response? : Event Sent → Option Response
  | queued response => some response
  | _ => none

/-- The pattern that is forbidden. -/
def failure? : Event Sent → Option FailurePattern
  | forbidden failure => some failure
  | _ => none

/-- The statement that is sent. -/
def statement? : Event Sent → Option Sent
  | sent statement => some statement
  | _ => none

/-- The responses that are queued, oldest first. -/
def responses (events : List (Event Sent)) : List Response :=
  events.filterMap response?

/-- The patterns that are forbidden, oldest first. -/
def failures (events : List (Event Sent)) : List FailurePattern :=
  events.filterMap failure?

/-- The statements that are sent, oldest first. -/
def statements (events : List (Event Sent)) : List Sent :=
  events.filterMap statement?

/-- What an event does to a script and a log. -/
def happen (state : Script × Log) : Event Compiled → Script × Log
  | queued response => (state.1.respond response, state.2)
  | forbidden failure => (state.1.failOn failure.pattern failure.message, state.2)
  | sent compiled => (Script.backend.logged.execute compiled state).2

end Event

/-! ### Calls -/

/-- A call of a run: it prepares the script, uses a table, or compiles a query without running
it. -/
inductive Call where
  | respond (rows : List Value)
  | respondWith (response : Response)
  | failOn (pattern message : String)
  | act (table : String) (action : Action)
  | createMany (table : String) (queries : List Create)
  | compile (table : String) (request : Request)

/-- What is made of a table, or of there being none of this name. -/
def Database.onTable {Result : Type} (database : Database) (name : String) (missing : Result)
    (use : TableHandle → Result) : Result :=
  match database.table name with
  | .error _ => missing
  | .ok handle => use handle

/-- The statements up to the first that contains a pattern, which is one of them. -/
def untilRejected (failures : List FailurePattern) : List Compiled → List Compiled
  | [] => []
  | compiled :: rest =>
    if FailurePattern.occursIn failures compiled then [compiled]
    else compiled :: untilRejected failures rest

/-- The statements that an action sends while these patterns are forbidden. -/
def Action.submitted (handle : TableHandle) (failures : List FailurePattern) :
    Action → List Compiled
  | .request query => (query.compile handle).toOption.toList
  | .deploy =>
    match TableHandle.compileAll handle.database (Statement.definitions handle.table) with
    | .error _ => []
    | .ok compiled => untilRejected failures (compiled.map Prod.snd)

namespace Call

/-- Makes a call. What is only compiled does not reach the script. -/
def run (database : Database) (state : Script × Log) : Call → Script × Log
  | respond rows => (state.1.respond (.ofRows rows), state.2)
  | respondWith response => (state.1.respond response, state.2)
  | failOn pattern message => (state.1.failOn pattern message, state.2)
  | act table action =>
    database.onTable table state fun handle =>
      (action.run handle Script.backend.logged state).2
  | createMany table queries =>
    database.onTable table state fun handle =>
      (handle.createMany Script.backend.logged queries state).2
  | compile _ _ => state

/-- Makes calls one after the other. -/
def runAll (database : Database) (calls : List Call) (state : Script × Log) : Script × Log :=
  calls.foldl (run database) state

/-- The events of a call that is made while these patterns are forbidden. -/
def events (database : Database) (failures : List FailurePattern) : Call → List (Event Compiled)
  | respond rows => [.queued (.ofRows rows)]
  | respondWith response => [.queued response]
  | failOn pattern message => [.forbidden ⟨pattern, message⟩]
  | act table action =>
    database.onTable table [] fun handle => (action.submitted handle failures).map .sent
  | createMany table queries =>
    database.onTable table [] fun handle => (handle.statementsOf queries).map .sent
  | compile _ _ => []

/-- The events of calls in order, of which each knows the patterns that were forbidden before. -/
def eventsOf (database : Database) : List FailurePattern → List Call → List (Event Compiled)
  | _, [] => []
  | failures, call :: rest =>
    call.events database failures ++
      eventsOf database (failures ++ Event.failures (call.events database failures)) rest

end Call

/-! ### Replies -/

/-- How a script comes to an answer. -/
inductive Reply where
  | rejected (failure : FailurePattern)
  | fromQueue (response : Response)
  | byDefault

namespace Reply

/-- What is answered to a statement. -/
def answer (compiled : Compiled) : Reply → Except Error Response
  | rejected failure => .error (Failure.client failure.message [])
  | fromQueue response => .ok response
  | byDefault => .ok (Script.defaultResponse compiled)

/-- The response that is taken out of the queue. -/
def taken? : Reply → Option Response
  | rejected _ => none
  | fromQueue response => some response
  | byDefault => none

/-- Whether the statement was rejected. -/
def isRejection : Reply → Bool
  | rejected _ => true
  | fromQueue _ => false
  | byDefault => false

end Reply

/-- The reply that a script has for a statement: a rejection by the first pattern that the
statement contains, or, if it contains none, the oldest response, or the default if there is
none. -/
inductive Script.Gives (script : Script) (compiled : Compiled) : Reply → Prop where
  | rejected {failure : FailurePattern}
      (first : script.failureOf? compiled.text = some failure) :
      Gives script compiled (.rejected failure)
  | fromQueue {response : Response}
      (free : FailurePattern.occursIn script.failures compiled = false)
      (oldest : script.queue.head? = some response) :
      Gives script compiled (.fromQueue response)
  | byDefault (free : FailurePattern.occursIn script.failures compiled = false)
      (none : script.queue = []) :
      Gives script compiled .byDefault

namespace Script

/-- A script gives one reply, which is its answer, and takes nothing but this reply out of the
queue. -/
theorem gives (script : Script) (compiled : Compiled) :
    ∃ reply later, script.Gives compiled reply ∧
      backend.execute compiled script =
        (reply.answer compiled, ⟨later, script.failures⟩) ∧
      script.queue = reply.taken?.toList ++ later := by
  obtain ⟨queue, failures⟩ := script
  change ∃ reply later, _ ∧ Script.reply compiled ⟨queue, failures⟩ = _ ∧ _
  cases found : failureOf? ⟨queue, failures⟩ compiled.text with
  | some failure =>
    refine ⟨.rejected failure, queue, .rejected found, ?_, rfl⟩
    rw [reply, found]
    rfl
  | none =>
    have free := (failureOf?_eq_none_iff ⟨queue, failures⟩ compiled).mp found
    cases queue with
    | nil =>
      refine ⟨.byDefault, [], .byDefault free rfl, ?_, rfl⟩
      rw [reply, found]
      rfl
    | cons response later =>
      refine ⟨.fromQueue response, later, .fromQueue free rfl, ?_, rfl⟩
      rw [reply, found]
      rfl

theorem Gives.isRejection_eq {script : Script} {compiled : Compiled} {reply : Reply}
    (gives : script.Gives compiled reply) :
    reply.isRejection = FailurePattern.occursIn script.failures compiled := by
  cases gives with
  | rejected first =>
    refine (Bool.eq_true_of_not_eq_false fun free => ?_).symm
    rw [(script.failureOf?_eq_none_iff compiled).mpr free] at first
    cases first
  | fromQueue free _ => exact free.symm
  | byDefault free _ => exact free.symm

end Script

/-- A statement that was sent, and the reply to it. -/
structure Delivery where
  compiled : Compiled
  reply : Reply

/-- The entry of a delivery in a log. -/
def Delivery.entry (delivery : Delivery) : LogEntry :=
  ⟨delivery.compiled, delivery.reply.isRejection⟩

/-- A statement that is sent is entered into the log. -/
theorem Script.logged_of_answer {compiled : Compiled} {reply : Reply} {script next : Script}
    (answered : backend.execute compiled script = (reply.answer compiled, next)) (log : Log) :
    (backend.logged.execute compiled (script, log)).2 =
      (next, log.record ⟨compiled, reply.isRejection⟩) := by
  rw [Backend.execute_logged, answered]
  cases reply <;> rfl

/-! ### A run is its events -/

theorem Request.run_snd {State : Type} (request : Request) (handle : TableHandle)
    (backend : Backend State) (state : State) :
    (request.run handle backend state).2 =
      backend.sendAll (request.compile handle).toOption.toList state := by
  rw [run_eq, ← TableHandle.fetch_snd]
  rfl

namespace Event

theorem failures_append {Sent : Type} (earlier later : List (Event Sent)) :
    failures (earlier ++ later) = failures earlier ++ failures later :=
  List.filterMap_append

theorem failures_happen (state : Script × Log) (event : Event Compiled) :
    (happen state event).1.failures = state.1.failures ++ failures [event] := by
  cases event with
  | queued response => exact (List.append_nil _).symm
  | forbidden failure => rfl
  | sent compiled =>
    obtain ⟨reply, later, -, answered, -⟩ := state.1.gives compiled
    exact (congrArg (fun next => next.1.failures)
      (Script.logged_of_answer answered state.2)).trans (List.append_nil _).symm

theorem failures_foldl (events : List (Event Compiled)) (state : Script × Log) :
    (events.foldl happen state).1.failures = state.1.failures ++ failures events := by
  induction events generalizing state with
  | nil => exact (List.append_nil _).symm
  | cons event rest inductionHypothesis =>
    rw [List.foldl_cons, inductionHypothesis, failures_happen, List.append_assoc,
      ← failures_append, List.singleton_append]

/-- Statements that are sent are events. -/
theorem sendAll_eq (statements : List Compiled) (state : Script × Log) :
    Script.backend.logged.sendAll statements state = (statements.map sent).foldl happen state := by
  rw [List.foldl_map]
  rfl

end Event

/-- A deployment sends its statements up to the first that contains a pattern. -/
theorem TableHandle.submitAll_snd (table : String) (index : Nat)
    (compiled : List (Statement × Compiled)) (state : Script × Log) :
    (submitAll Script.backend.logged table index compiled state).2 =
      Script.backend.logged.sendAll (untilRejected state.1.failures (compiled.map Prod.snd))
        state := by
  induction compiled generalizing index state with
  | nil => rfl
  | cons entry rest inductionHypothesis =>
    obtain ⟨statement, compiled⟩ := entry
    obtain ⟨script, log⟩ := state
    obtain ⟨reply, later, gives, answered, -⟩ := script.gives compiled
    have sent := Script.logged_of_answer answered log
    rw [List.map_cons, untilRejected, ← gives.isRejection_eq, submitAll]
    cases reply with
    | rejected failure =>
      rw [Backend.run_logged_of_error answered, Reply.isRejection, if_pos rfl,
        Backend.sendAll_cons, sent]
      rfl
    | _ =>
      rw [Backend.run_logged_of_ok answered, Reply.isRejection, if_neg Bool.false_ne_true,
        Backend.sendAll_cons, sent]
      exact inductionHypothesis (index + 1) _

theorem Action.run_snd (action : Action) (handle : TableHandle) (state : Script × Log) :
    (action.run handle Script.backend.logged state).2 =
      Script.backend.logged.sendAll (action.submitted handle state.1.failures) state := by
  cases action with
  | request query => exact query.run_snd handle Script.backend.logged state
  | deploy =>
    rw [run, submitted, TableHandle.deploy]
    cases TableHandle.compileAll handle.database (Statement.definitions handle.table) with
    | error error => rfl
    | ok compiled => exact TableHandle.submitAll_snd handle.table.name 0 compiled state

namespace Call

variable {database : Database}

/-- What a call does is that its events happen. -/
theorem run_eq (call : Call) (state : Script × Log) :
    call.run database state =
      (call.events database state.1.failures).foldl Event.happen state := by
  cases call with
  | act table action =>
    rw [run, events, Database.onTable, Database.onTable]
    cases database.table table with
    | error error => rfl
    | ok handle => exact (action.run_snd handle state).trans (Event.sendAll_eq _ state)
  | createMany table queries =>
    rw [run, events, Database.onTable, Database.onTable]
    cases database.table table with
    | error error => rfl
    | ok handle =>
      exact (handle.createMany_snd Script.backend.logged queries state).trans
        (Event.sendAll_eq _ state)
  | _ => rfl

theorem runAll_eq (calls : List Call) (state : Script × Log) :
    runAll database calls state =
      (eventsOf database state.1.failures calls).foldl Event.happen state := by
  induction calls generalizing state with
  | nil => rfl
  | cons call rest inductionHypothesis =>
    have others := inductionHypothesis (call.run database state)
    rw [run_eq, Event.failures_foldl] at others
    rw [eventsOf, List.foldl_append, ← others, runAll, List.foldl_cons, run_eq]
    rfl

end Call

/-! ### Accounts -/

namespace Event

/-- The responses that statements have taken out of the queue, oldest first. -/
def delivered (events : List (Event Delivery)) : List Response :=
  (statements events).filterMap fun delivery => delivery.reply.taken?

end Event

/-- The accounts of events that lead from a script and a log to another script and log. -/
structure Accounts (script : Script) (log : Log) (events : List (Event Delivery))
    (final : Script × Log) : Prop where
  /-- The responses are delivered in the order of the queue, and what is left is the rest. -/
  queue : script.queue ++ Event.responses events = Event.delivered events ++ final.1.queue
  /-- The patterns are kept. -/
  failures : final.1.failures = script.failures ++ Event.failures events
  /-- Every statement is entered into the log, and nothing else is. -/
  entries : final.2.entries = log.entries ++ (Event.statements events).map Delivery.entry
  /-- Every reply is the one for the responses and patterns that there are at its place. -/
  replies : ∀ before compiled reply after, events = before ++ .sent ⟨compiled, reply⟩ :: after →
    ∃ waiting, script.queue ++ Event.responses before = Event.delivered before ++ waiting ∧
      Script.Gives ⟨waiting, script.failures ++ Event.failures before⟩ compiled reply ∧
      (Script.backend.execute compiled
        ⟨waiting, script.failures ++ Event.failures before⟩).1 = reply.answer compiled

namespace Event

variable {Sent : Type}

theorem responses_append (earlier later : List (Event Sent)) :
    responses (earlier ++ later) = responses earlier ++ responses later :=
  List.filterMap_append

theorem statements_append (earlier later : List (Event Sent)) :
    statements (earlier ++ later) = statements earlier ++ statements later :=
  List.filterMap_append

theorem delivered_append (earlier later : List (Event Delivery)) :
    delivered (earlier ++ later) = delivered earlier ++ delivered later := by
  rw [delivered, statements_append, List.filterMap_append]
  rfl

end Event

namespace Accounts

variable {script : Script} {log : Log} {event : Event Delivery} {later : List (Event Delivery)}
  {next final : Script × Log}

theorem nil (script : Script) (log : Log) : Accounts script log [] (script, log) where
  queue := List.append_nil _
  failures := (List.append_nil _).symm
  entries := (List.append_nil _).symm
  replies before compiled reply after parts := by
    cases (List.append_eq_nil_iff.mp parts.symm).2

/-- The accounts of an event and of what happens after it add up. -/
theorem cons (here : Accounts script log [event] next)
    (there : Accounts next.1 next.2 later final) : Accounts script log (event :: later) final where
  queue := by
    rw [← List.singleton_append, Event.responses_append, Event.delivered_append,
      ← List.append_assoc, here.queue, List.append_assoc, there.queue, List.append_assoc]
  failures := by
    rw [← List.singleton_append, Event.failures_append, there.failures, here.failures,
      List.append_assoc]
  entries := by
    rw [← List.singleton_append, Event.statements_append, List.map_append, there.entries,
      here.entries, List.append_assoc]
  replies before compiled reply after parts := by
    cases before with
    | nil =>
      obtain ⟨rfl, -⟩ := List.cons.inj parts
      exact here.replies [] compiled reply [] rfl
    | cons first between =>
      obtain ⟨rfl, rest⟩ := List.cons.inj parts
      obtain ⟨waiting, queue, given⟩ := there.replies between compiled reply after rest
      rw [here.failures, List.append_assoc] at given
      refine ⟨waiting, ?_, ?_⟩
      · rw [← List.singleton_append, Event.responses_append, Event.delivered_append,
          ← List.append_assoc, here.queue, List.append_assoc, queue, List.append_assoc]
      · rw [← List.singleton_append, Event.failures_append]
        exact given

/-- A response that is queued, or a pattern that is forbidden, is no statement. -/
theorem not_sent (other : event.statement? = none) {before after : List (Event Delivery)}
    {delivery : Delivery} (parts : [event] = before ++ .sent delivery :: after) : False := by
  have member : Event.sent delivery ∈ [event] := by
    rw [parts]
    exact List.mem_append_right _ List.mem_cons_self
  rw [← List.mem_singleton.mp member] at other
  cases other

theorem queued (script : Script) (log : Log) (response : Response) :
    Accounts script log [.queued response] (script.respond response, log) where
  queue := rfl
  failures := (List.append_nil _).symm
  entries := (List.append_nil _).symm
  replies _ _ _ _ parts := (not_sent rfl parts).elim

theorem forbidden (script : Script) (log : Log) (failure : FailurePattern) :
    Accounts script log [.forbidden failure]
      (script.failOn failure.pattern failure.message, log) where
  queue := List.append_nil _
  failures := rfl
  entries := (List.append_nil _).symm
  replies _ _ _ _ parts := (not_sent rfl parts).elim

/-- A statement that is sent takes at most its reply out of the queue. -/
theorem sent (script : Script) (log : Log) (compiled : Compiled) :
    ∃ reply, Accounts script log [.sent ⟨compiled, reply⟩]
      (Event.happen (script, log) (.sent compiled)) := by
  obtain ⟨reply, later, gives, answered, taken⟩ := script.gives compiled
  refine ⟨reply, ?_⟩
  rw [Event.happen, Script.logged_of_answer answered]
  refine ⟨?_, (List.append_nil _).symm, rfl, ?_⟩
  · refine (List.append_nil _).trans (taken.trans ?_)
    cases reply <;> rfl
  · intro before other otherReply after parts
    cases before with
    | nil =>
      cases parts
      refine ⟨script.queue, List.append_nil _, ?_⟩
      have same : (⟨script.queue, script.failures ++ Event.failures ([] : List (Event Delivery))⟩ :
          Script) = script := congrArg (Script.mk script.queue) (List.append_nil _)
      rw [same]
      exact ⟨gives, congrArg Prod.fst answered⟩
    | cons first rest => cases (List.append_eq_nil_iff.mp (List.cons.inj parts).2.symm).2

/-- Whatever happens, there are replies with which the accounts hold. -/
theorem exists_of_happen (events : List (Event Compiled)) (script : Script) (log : Log) :
    ∃ told : List (Event Delivery), told.map (Event.map Delivery.compiled) = events ∧
      Accounts script log told (events.foldl Event.happen (script, log)) := by
  induction events generalizing script log with
  | nil => exact ⟨[], rfl, .nil script log⟩
  | cons event rest inductionHypothesis =>
    have first : ∃ told : Event Delivery, told.map Delivery.compiled = event ∧
        Accounts script log [told] (Event.happen (script, log) event) := by
      cases event with
      | queued response => exact ⟨.queued response, rfl, .queued script log response⟩
      | forbidden failure => exact ⟨.forbidden failure, rfl, .forbidden script log failure⟩
      | sent compiled =>
        obtain ⟨reply, here⟩ := sent script log compiled
        exact ⟨.sent ⟨compiled, reply⟩, rfl, here⟩
    obtain ⟨told, same, here⟩ := first
    obtain ⟨others, otherSame, there⟩ := inductionHypothesis _ _
    exact ⟨told :: others, congrArg₂ List.cons same otherSame, here.cons there⟩

end Accounts

/-! ### What a run sends -/

namespace Event

/-- The statements that contain a pattern, which is one of these or has been forbidden before the
statement is sent. -/
def offending (failures : List FailurePattern) : List (Event Compiled) → List Compiled
  | [] => []
  | queued _ :: rest => offending failures rest
  | forbidden failure :: rest => offending (failures ++ [failure]) rest
  | sent compiled :: rest =>
    if FailurePattern.occursIn failures compiled then compiled :: offending failures rest
    else offending failures rest

theorem rejections_record (log : Log) (compiled : Compiled) (rejected : Bool) :
    (log.record ⟨compiled, rejected⟩).rejections = log.rejections + rejected.toNat := by
  rw [Log.rejections, Log.rejections, Log.record, List.countP_append]
  cases rejected <;> rfl

/-- The log counts the statements that contain a pattern. -/
theorem rejections_foldl (events : List (Event Compiled)) (script : Script) (log : Log) :
    (events.foldl happen (script, log)).2.rejections =
      log.rejections + (offending script.failures events).length := by
  induction events generalizing script log with
  | nil => rfl
  | cons event rest inductionHypothesis =>
    rw [List.foldl_cons]
    cases event with
    | queued response => exact inductionHypothesis (script.respond response) log
    | forbidden failure =>
      exact inductionHypothesis (script.failOn failure.pattern failure.message) log
    | sent compiled =>
      obtain ⟨reply, later, gives, answered, -⟩ := script.gives compiled
      rw [happen, Script.logged_of_answer answered, inductionHypothesis, rejections_record,
        gives.isRejection_eq, offending]
      cases FailurePattern.occursIn script.failures compiled with
      | false => rfl
      | true =>
        rw [if_pos rfl, List.length_cons, Nat.add_assoc, Nat.add_comm (Bool.toNat true)]
        rfl

theorem statements_map {Sent Other : Type} (tell : Sent → Other) (events : List (Event Sent)) :
    statements (events.map (map tell)) = (statements events).map tell := by
  rw [statements, statements, List.filterMap_map, List.map_filterMap]
  refine List.filterMap_congr fun event _ => ?_
  cases event <;> rfl

end Event

/-- The log has the statements of the events. -/
theorem Accounts.sent_eq {script : Script} {log : Log} {told : List (Event Delivery)}
    {final : Script × Log} (accounts : Accounts script log told final) :
    final.2.sent = log.sent ++ Event.statements (told.map (Event.map Delivery.compiled)) := by
  rw [Log.sent, Log.sent, accounts.entries, List.map_append, List.map_map, Event.statements_map]
  rfl

namespace Call

/-- No response and no statement is lost or doubled over a run. A query is one event of the run if
it passes its check and none if it does not. The log has the statements of the events in order, and
counts as many rejections as there are statements with a pattern that was forbidden before. There
are replies with which the accounts hold: responses are delivered in the order in which they were
queued, each as the reply to one statement without a forbidden pattern; what is left of them at the
end is what has not been delivered; and every reply is the one for the responses that were left and
the patterns that were forbidden when the statement was sent. -/
theorem runAll_accounts {tables : List Table} {defaults : Options} {database : Database}
    (built : Database.build tables defaults = .ok database) :
    (∀ name handle, database.table name = .ok handle →
      ∀ (request : Request) (failures : List FailurePattern),
        (request.check handle.table = .ok () →
          ∃ compiled, request.compile handle = .ok compiled ∧
            (act name (.request request)).events database failures = [.sent compiled]) ∧
        (request.check handle.table ≠ .ok () →
          (act name (.request request)).events database failures = [])) ∧
    ∀ (calls : List Call) (script : Script) (log : Log),
      (runAll database calls (script, log)).2.sent =
        log.sent ++ Event.statements (eventsOf database script.failures calls) ∧
      (runAll database calls (script, log)).2.rejections =
        log.rejections +
          (Event.offending script.failures (eventsOf database script.failures calls)).length ∧
      ∃ told : List (Event Delivery),
        told.map (Event.map Delivery.compiled) = eventsOf database script.failures calls ∧
        Accounts script log told (runAll database calls (script, log)) := by
  refine ⟨fun name handle found request failures => ?_, fun calls script log => ?_⟩
  · have passes := request.compiles_iff_passes (Database.name_ne_of_table built found)
    rw [events, Database.onTable, found]
    dsimp only
    rw [Action.submitted]
    cases compiles : request.compile handle with
    | error error =>
      refine ⟨fun passed => ?_, fun _ => rfl⟩
      obtain ⟨compiled, same⟩ := passes.mpr passed
      rw [compiles] at same
      cases same
    | ok compiled =>
      exact ⟨fun _ => ⟨compiled, rfl, rfl⟩,
        fun refused => absurd (passes.mp ⟨compiled, compiles⟩) refused⟩
  · rw [runAll_eq]
    obtain ⟨told, same, accounts⟩ :=
      Accounts.exists_of_happen (eventsOf database script.failures calls) script log
    have sent := accounts.sent_eq
    rw [same] at sent
    exact ⟨sent, Event.rejections_foldl _ script log, told, same, accounts⟩

/-- A run that queues a response, forbids indices and sets the users up. -/
def usersRun : List Call :=
  [.respond [], .failOn "INDEX" "no", .act "User" .deploy, .respond [.int 1]]

/-- The index is the third statement and the only one that is rejected. The first response has
been delivered, and the second is left. -/
theorem runAll_accounts_users :
    Database.build [TableHandle.users] Options.unset = .ok TableHandle.usersDatabase ∧
    (runAll TableHandle.usersDatabase usersRun (Script.empty, Log.empty)).2.sent.length = 3 ∧
    (runAll TableHandle.usersDatabase usersRun (Script.empty, Log.empty)).2.rejections = 1 ∧
    (runAll TableHandle.usersDatabase usersRun (Script.empty, Log.empty)).1.queue =
      [.ofRows [.int 1]] := by
  have built : Database.build [TableHandle.users] Options.unset = .ok TableHandle.usersDatabase :=
    rfl
  obtain ⟨sent, rejections, -⟩ :=
    (runAll_accounts built).2 usersRun Script.empty Log.empty
  refine ⟨built, ?_, ?_, rfl⟩
  · rw [sent]
    rfl
  · rw [rejections]
    rfl

end Call

end DocQuery

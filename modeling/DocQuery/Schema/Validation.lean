/-
This file checks queries against a table before anything is written.

Every record has an `id`, which no table declares, so that name passes everywhere and is not
checked further. Every other name must be that of a field, and a value that is assigned, stored or
compared must be one that its field accepts. The first fault that is met decides the error.
-/

import DocQuery.Query
import DocQuery.Schema.Table

namespace DocQuery.Table

/-! ### Names and values -/

/-- The name that every record has a value for. -/
def idName : String := "id"

/-- Checks that a clause names the id or a field. -/
def checkName (table : Table) (clause name : String) : Except Error Unit :=
  if name = idName ∨ (table.field? name).isSome then .ok ()
  else .error (Failure.invalidStatement (.unknownReference clause name table.name))

/-- Checks that a value fits the field of its name. -/
def checkValue (table : Table) (name : String) (value : Value) : Except Error Unit :=
  if name = idName then .ok ()
  else
    match table.field? name with
    | none => .error (Failure.invalidStatement (.unknownReference "data" name table.name))
    | some field =>
      if field.accepts value then .ok ()
      else
        .error (Failure.validation
          (.typeMismatch table.name name field.kind.name value.typeName))

/-- Checks names that a clause lists, in order. -/
def checkNames (table : Table) (clause : String) : List String → Except Error Unit
  | [] => .ok ()
  | name :: rest =>
    match table.checkName clause name with
    | .error error => .error error
    | .ok () => table.checkNames clause rest

/-- Checks values under their names, in order. -/
def checkValues (table : Table) : List (String × Value) → Except Error Unit
  | [] => .ok ()
  | (name, value) :: rest =>
    match table.checkValue name value with
    | .error error => .error error
    | .ok () => table.checkValues rest

/-- Checks constraints of a filter, first the name and then the value of each. -/
def checkConstraints (table : Table) : List Constraint → Except Error Unit
  | [] => .ok ()
  | (name, value) :: rest =>
    match table.checkName "filter" name with
    | .error error => .error error
    | .ok () =>
      match table.checkValue name value with
      | .error error => .error error
      | .ok () => table.checkConstraints rest

/-! ### Queries -/

/-- Checks the constraints of a filter, at every depth. -/
def checkFilter (table : Table) (filter : Filter) : Except Error Unit :=
  table.checkConstraints filter.constraints

/-- Checks a filter if there is one. -/
def checkFilter? (table : Table) : Option Filter → Except Error Unit
  | none => .ok ()
  | some filter => table.checkFilter filter

/-- Checks that a projection does not list nothing. -/
def checkProjection (table : Table) : Projection → Except Error Unit
  | .only [] => .error (Failure.invalidStatement (.nothingIncluded table.name))
  | _ => .ok ()

/-- Checks filter, projection and order of a select. -/
def checkSelect (table : Table) (query : Select) : Except Error Unit := do
  table.checkFilter? query.filter
  table.checkProjection query.projection
  table.checkNames "projection" query.projection.fields
  table.checkNames "ORDER BY" query.order.names

/-- Checks assignments and filter of an update, which must assign something. -/
def checkUpdate (table : Table) (query : Update) : Except Error Unit :=
  if query.assignments.isEmpty then
    .error (Failure.invalidStatement (.nothingAssigned table.name))
  else do
    table.checkValues query.assignments.entries
    table.checkFilter? query.filter

/-- Checks that the content has a value for every field that requires one. -/
def checkRequired (table : Table) (content : Dictionary Value) : List Field → Except Error Unit
  | [] => .ok ()
  | field :: rest =>
    if field.isRequired && !content.contains field.nameOrEmpty then
      .error (Failure.validation (.missingField table.name field.nameOrEmpty))
    else table.checkRequired content rest

/-- Checks the content of a create and that it is complete. -/
def checkCreate (table : Table) (query : Create) : Except Error Unit := do
  table.checkValues query.content.entries
  table.checkRequired query.content table.fields.items

end DocQuery.Table

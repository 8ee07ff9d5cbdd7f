/-
This file holds tables: a name and the fields that were added, in the order of their addition.

A field is added under a name that the table does not have yet, and only if no table owns it.
The field then bears that name and the table owns it. Adding a field gives both how that ended and
the table after it. A table that refuses a field is left as it was.
-/

import DocQuery.Schema.Field

namespace DocQuery

/-- A declared table. -/
structure Table where
  name : String
  fields : Dictionary Field
  /-- Whether a definition replaces an earlier one. -/
  overwrite : Bool

namespace Table

/-- The table without fields. -/
def withoutFields (name : String) : Table :=
  ⟨name, Dictionary.empty, false⟩

/-- Adds a field under a name. -/
def insert (table : Table) (name : String) (field : Field) : Except Error Unit × Table :=
  if table.fields.contains name then (.error (Failure.duplicateField table.name name), table)
  else
    match field.attach table.name name with
    | .error error => (.error error, table)
    | .ok attached => (.ok (), { table with fields := table.fields.insert name attached })

/-- Adds fields under their names, one after the other. -/
def insertAll (table : Table) : List (String × Field) → Except Error Table
  | [] => .ok table
  | (name, field) :: rest =>
    match table.insert name field with
    | (.error error, _) => .error error
    | (.ok (), grown) => grown.insertAll rest

/-- The table with these fields, each named after its key. -/
def ofFields (name : String) (fields : List (String × Field)) : Except Error Table :=
  (withoutFields name).insertAll fields

/-- Adds a field under the name that it has been given. -/
def register (table : Table) (field : Field) : Except Error Unit × Table :=
  match field.name with
  | none => (.error (Failure.unsetName "field"), table)
  | some name => table.insert name field

/-- The table with the field added, for a caller who gives up when the field is refused. -/
def addField (table : Table) (field : Field) : Except Error Table :=
  match table.register field with
  | (.error error, _) => .error error
  | (.ok (), grown) => .ok grown

/-- Adds fields up to the first that is refused; the table keeps those before it. -/
def addFields (table : Table) : List Field → Except Error Unit × Table
  | [] => (.ok (), table)
  | field :: rest =>
    match table.register field with
    | (.error error, kept) => (.error error, kept)
    | (.ok (), grown) => grown.addFields rest

/-- The field of this name. -/
def field? (table : Table) (name : String) : Option Field :=
  table.fields.find? name

/-- The names of the fields, in order. -/
def fieldNames (table : Table) : List String :=
  table.fields.names

end Table

end DocQuery

/-
This file holds schemas: the tables of a database, in the order of their declaration.

Links may lead to tables that are declared later, so a schema is built in two steps. First the
tables are collected, which need names and no two the same one. Then each link of each field is
looked up, in order, and must lead to a table.
-/

import DocQuery.Schema.Table

namespace DocQuery

/-- The declared tables, by name. -/
structure Schema where
  tables : Dictionary Table

namespace Schema

/-- The table of this name. -/
def table? (schema : Schema) (name : String) : Option Table :=
  schema.tables.find? name

/-- The table that a link leads to. -/
def resolve (schema : Schema) (link : TableLink) : Except Error Table :=
  match schema.table? link.name with
  | some table => .ok table
  | none => .error (Failure.invalidSchema (.unresolvedLink link.name))

/-! ### Building -/

/-- Collects tables by their names, which must be set and distinct. -/
def collect (collected : Dictionary Table) : List Table → Except Error (Dictionary Table)
  | [] => .ok collected
  | table :: rest =>
    if table.name = "" then .error (Failure.unsetName "table")
    else if collected.contains table.name then
      .error (Failure.invalidSchema (.declaredTwice table.name))
    else collect (collected.insert table.name table) rest

/-- The links of a table, each with the name of its field. -/
def linksOf (table : Table) : List (String × TableLink) :=
  table.fields.items.flatMap fun field =>
    field.kind.targets.map fun target => (field.nameOrEmpty, target)

/-- The first link of the tables that leads nowhere, as a problem. -/
def danglingLink? (schema : Schema) : Option SchemaProblem :=
  schema.tables.items.findSome? fun table =>
    (linksOf table).findSome? fun link =>
      if (schema.table? link.2.name).isSome then none
      else some (.danglingLink table.name link.1 link.2.name)

/-- The schema of the declared tables. -/
def build (tables : List Table) : Except Error Schema :=
  match collect Dictionary.empty tables with
  | .error error => .error error
  | .ok collected =>
    match danglingLink? ⟨collected⟩ with
    | some problem => .error (Failure.invalidSchema problem)
    | none => .ok ⟨collected⟩

end Schema

end DocQuery

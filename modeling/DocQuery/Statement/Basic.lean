/-
This file holds statements: the definitions of tables, fields and indices, and the queries on a
table. Tables and fields are named and looked up in the schema only when a statement is written.
-/

import DocQuery.Query
import DocQuery.Schema.Basic

namespace DocQuery

/-- A single statement. -/
inductive Statement where
  | defineTable (table : String)
  | defineField (table field : String)
  /-- The index that keeps the values of a field apart. -/
  | defineIndex (table field : String)
  | select (table : String) (query : Select)
  | update (table : String) (query : Update)
  | create (table : String) (query : Create)

namespace Statement

/-- The table of a statement. -/
def table : Statement → String
  | .defineTable table => table
  | .defineField table _ => table
  | .defineIndex table _ => table
  | .select table _ => table
  | .update table _ => table
  | .create table _ => table

/-- The field that a definition belongs to. -/
def field? : Statement → Option String
  | .defineField _ field => some field
  | .defineIndex _ field => some field
  | _ => none

/-- Whether the statement defines something. -/
def isDefinition : Statement → Bool
  | .defineTable _ => true
  | .defineField _ _ => true
  | .defineIndex _ _ => true
  | _ => false

/-- The definitions of a field: its own and, if it is unique, that of its index. -/
def fieldDefinitions (table : String) (field : Field) : List Statement :=
  .defineField table field.nameOrEmpty ::
    if field.isUnique then [.defineIndex table field.nameOrEmpty] else []

/-- The definitions that set up a table: its own, then those of its fields in order. -/
def definitions (table : Table) : List Statement :=
  .defineTable table.name :: table.fields.items.flatMap (fieldDefinitions table.name)

end Statement

end DocQuery

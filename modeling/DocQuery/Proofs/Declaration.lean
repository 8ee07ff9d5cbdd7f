/-
This file proves that names lead back to what bears them.

A table comes about by adding fields, each of which then goes by the name under which it is
filed. Building a schema files every table under its own name, which is not empty. So whoever
looks up the name of a table of the schema finds that table, and whoever looks up the name of one
of its fields finds that field. Statements hold names only, and this is what makes them be about
the tables and fields that they were made for.
-/

import DocQuery.Database

namespace DocQuery

/-! ### Fields are filed under their names -/

namespace Table

/-- The tables that can be declared: fields are added all at once or one by one, while the name of
the table and its mark are plain data that may be changed at any time. -/
inductive Declared : Table → Prop
  | ofFields {name : String} {fields : List (String × Field)} {table : Table}
      (made : ofFields name fields = .ok table) : Declared table
  | addField {table grown : Table} {field : Field} (earlier : Declared table)
      (added : table.addField field = .ok grown) : Declared grown
  | marked {table : Table} (earlier : Declared table) (name : String) (overwrite : Bool) :
      Declared { table with name := name, overwrite := overwrite }

/-- Every field goes by the name under which it is filed. -/
def FieldsNamed (table : Table) : Prop :=
  ∀ entry ∈ table.fields.entries, entry.2.name = some entry.1

theorem fieldsNamed_withoutFields (name : String) : (withoutFields name).FieldsNamed := by
  intro entry member
  cases member

end Table

theorem Field.name_of_attach {field attached : Field} {table name : String}
    (attaches : field.attach table name = .ok attached) : attached.name = some name := by
  unfold attach at attaches
  split at attaches
  · cases attaches
  · split at attaches
    · split at attaches
      · cases attaches
        rfl
      · cases attaches
    · cases attaches
      rfl

namespace Table

/-- A field that is added goes to the end and bears the name under which it was added. -/
theorem insert_eq_ok {table grown : Table} {name : String} {field : Field}
    (inserted : table.insert name field = (.ok (), grown)) :
    ∃ attached : Field, attached.name = some name ∧
      grown.fields.entries = table.fields.entries ++ [(name, attached)] := by
  unfold insert at inserted
  split at inserted
  · cases inserted
  · rename_i fresh
    split at inserted
    · cases inserted
    · rename_i attached attaches
      cases inserted
      rw [Dictionary.contains_iff] at fresh
      exact ⟨attached, Field.name_of_attach attaches, Entries.put_of_not_mem attached fresh⟩

/-- A field that is registered has a name, and is added under it. -/
theorem register_eq_ok {table grown : Table} {field : Field}
    (registered : table.register field = (.ok (), grown)) :
    ∃ name, field.name = some name ∧ table.insert name field = (.ok (), grown) := by
  unfold register at registered
  split at registered
  · cases registered
  · rename_i name named
    exact ⟨name, named, registered⟩

theorem addField_eq_ok_iff {table grown : Table} {field : Field} :
    table.addField field = .ok grown ↔ table.register field = (.ok (), grown) := by
  unfold addField
  split
  · rename_i error kept refused
    rw [refused]
    exact iff_of_false nofun nofun
  · rename_i next registered
    rw [registered, Except.ok.injEq, Prod.mk.injEq]
    exact (and_iff_right rfl).symm

theorem FieldsNamed.insert {table grown : Table} {name : String} {field : Field}
    (named : table.FieldsNamed) (inserted : table.insert name field = (.ok (), grown)) :
    grown.FieldsNamed := by
  obtain ⟨attached, bears, entries⟩ := insert_eq_ok inserted
  intro entry member
  rw [entries, List.mem_append, List.mem_singleton] at member
  rcases member with earlier | rfl
  · exact named entry earlier
  · exact bears

theorem FieldsNamed.insertAll {table grown : Table} {fields : List (String × Field)}
    (named : table.FieldsNamed) (inserted : table.insertAll fields = .ok grown) :
    grown.FieldsNamed := by
  induction fields generalizing table with
  | nil =>
    cases inserted
    exact named
  | cons entry rest inductionHypothesis =>
    rw [Table.insertAll] at inserted
    split at inserted
    · cases inserted
    · rename_i next first
      exact inductionHypothesis (named.insert first) inserted

theorem Declared.fieldsNamed {table : Table} (declared : table.Declared) : table.FieldsNamed := by
  induction declared with
  | ofFields made => exact (fieldsNamed_withoutFields _).insertAll made
  | addField earlier added named =>
    obtain ⟨name, -, inserted⟩ := register_eq_ok (addField_eq_ok_iff.mp added)
    exact named.insert inserted
  | marked earlier name overwrite named => exact named

/-- A field is found under its name. -/
theorem FieldsNamed.field?_eq {table : Table} (named : table.FieldsNamed) {field : Field}
    (member : field ∈ table.fields.items) :
    field.name = some field.nameOrEmpty ∧ table.field? field.nameOrEmpty = some field := by
  obtain ⟨⟨name, _⟩, filed, rfl⟩ := List.mem_map.mp member
  have bears := named _ filed
  dsimp only at bears ⊢
  rw [Field.nameOrEmpty, bears]
  exact ⟨rfl, Entries.find?_of_mem table.fields.distinct filed⟩

end Table

/-! ### Tables are filed under their names -/

namespace Schema

/-- Tables are collected in order, each under its name. -/
theorem collect_eq_ok {collected result : Dictionary Table} {tables : List Table}
    (collects : collect collected tables = .ok result) :
    result.entries = collected.entries ++ tables.map (fun table => (table.name, table)) ∧
      ∀ table ∈ tables, table.name ≠ "" := by
  induction tables generalizing collected with
  | nil =>
    cases collects
    exact ⟨(List.append_nil _).symm, List.forall_mem_nil _⟩
  | cons table rest inductionHypothesis =>
    rw [collect] at collects
    split at collects
    · cases collects
    · rename_i named
      split at collects
      · cases collects
      · rename_i fresh
        rw [Dictionary.contains_iff] at fresh
        obtain ⟨entries, others⟩ := inductionHypothesis collects
        have first : (collected.insert table.name table).entries =
            collected.entries ++ [(table.name, table)] :=
          Entries.put_of_not_mem table fresh
        refine ⟨?_, List.forall_mem_cons.mpr ⟨named, others⟩⟩
        rw [entries, first, List.append_assoc, List.singleton_append, List.map_cons]

/-- A schema holds the declared tables in order, each under its name, which is not empty. -/
theorem build_eq_ok {tables : List Table} {schema : Schema} (built : build tables = .ok schema) :
    schema.tables.entries = tables.map (fun table => (table.name, table)) ∧
      ∀ table ∈ tables, table.name ≠ "" := by
  unfold build at built
  split at built
  · cases built
  · rename_i collected collects
    split at built
    · cases built
    · cases built
      exact collect_eq_ok collects

/-- A schema that files tables under their names finds a table under a name exactly if it is one of
them and has this name. -/
theorem table?_eq_some_iff {schema : Schema} {tables : List Table}
    (entries : schema.tables.entries = tables.map fun table => (table.name, table))
    {name : String} {table : Table} :
    schema.table? name = some table ↔ table ∈ tables ∧ table.name = name := by
  constructor
  · intro found
    have filed := Entries.mem_of_find? found
    rw [entries] at filed
    obtain ⟨other, member, same⟩ := List.mem_map.mp filed
    cases same
    exact ⟨member, rfl⟩
  · rintro ⟨member, rfl⟩
    refine Entries.find?_of_mem schema.tables.distinct ?_
    rw [entries]
    exact List.mem_map.mpr ⟨table, member, rfl⟩

theorem items_eq {schema : Schema} {tables : List Table}
    (entries : schema.tables.entries = tables.map fun table => (table.name, table)) :
    schema.tables.items = tables := by
  rw [Dictionary.items, entries, List.map_map]
  exact List.map_id tables

/-- What building a schema establishes about a table of it: the table is found under its name,
which is not empty, and so is each of its fields. -/
structure Files (schema : Schema) (table : Table) : Prop where
  table?_eq : schema.table? table.name = some table
  name_ne : table.name ≠ ""
  fieldsNamed : table.FieldsNamed

theorem files_of_build {tables : List Table} {schema : Schema}
    (declared : ∀ table ∈ tables, table.Declared) (built : build tables = .ok schema)
    {table : Table} (member : table ∈ schema.tables.items) : schema.Files table := by
  obtain ⟨entries, named⟩ := build_eq_ok built
  rw [items_eq entries] at member
  exact ⟨(table?_eq_some_iff entries).mpr ⟨member, rfl⟩, named table member,
    (declared table member).fieldsNamed⟩

end Schema

namespace Database

theorem build_eq_ok {tables : List Table} {defaults : Options} {database : Database}
    (built : build tables defaults = .ok database) :
    Schema.build tables = .ok database.schema ∧ database.defaults = defaults := by
  unfold build at built
  split at built
  · cases built
  · rename_i schema schemaBuilt
    cases built
    exact ⟨schemaBuilt, rfl⟩

/-- A handle is on the database and on one of its tables. -/
theorem table_eq_ok {database : Database} {name : String} {handle : TableHandle}
    (found : database.table name = .ok handle) :
    handle.database = database ∧ handle.table ∈ database.schema.tables.items := by
  unfold table at found
  split at found
  · rename_i table filed
    cases found
    exact ⟨rfl, List.mem_map.mpr ⟨_, Entries.mem_of_find? filed, rfl⟩⟩
  · cases found

theorem name_ne_of_table {tables : List Table} {defaults : Options} {database : Database}
    (built : build tables defaults = .ok database) {name : String} {handle : TableHandle}
    (found : database.table name = .ok handle) : handle.table.name ≠ "" := by
  obtain ⟨entries, named⟩ := Schema.build_eq_ok (build_eq_ok built).1
  have member := (table_eq_ok found).2
  rw [Schema.items_eq entries] at member
  exact named handle.table member

end Database

end DocQuery

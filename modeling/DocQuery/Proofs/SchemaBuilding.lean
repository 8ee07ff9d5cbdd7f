/-
This file proves when tables can be built into a schema, and what a schema finds.

Each step of the building asks for one thing. Collecting the tables asks for names that are there
and differ, which depends on the tables before each table, so what is proved about it takes along
what has been collected. Looking up the links asks for a table of each name they have, and as all
tables have been collected by then, it does not matter which of the tables was declared first.
-/

import DocQuery.Proofs.Declaration

namespace DocQuery

namespace Schema

/-- Tables that can be built into a schema: they have names, no two the same one, and every link of
every field leads to one of them. -/
structure Consistent (tables : List Table) : Prop where
  named : ∀ table ∈ tables, table.name ≠ ""
  distinct : (tables.map Table.name).Nodup
  linked : ∀ table ∈ tables, ∀ field ∈ table.fields.items, ∀ target ∈ field.kind.targets,
    target.name ∈ tables.map Table.name

/-! ### Collecting tables -/

/-- Tables are collected exactly if each has a name that no table before it has. -/
theorem exists_collect_iff {collected : Dictionary Table} {tables : List Table} :
    (∃ result, collect collected tables = .ok result) ↔
      (∀ table ∈ tables, table.name ≠ "") ∧
        (collected.names ++ tables.map Table.name).Nodup := by
  induction tables generalizing collected with
  | nil =>
    rw [List.map_nil, List.append_nil]
    exact ⟨fun _ => ⟨List.forall_mem_nil _, collected.distinct⟩, fun _ => ⟨collected, rfl⟩⟩
  | cons table rest inductionHypothesis =>
    rw [collect, List.forall_mem_cons, List.map_cons]
    by_cases unnamed : table.name = ""
    · rw [if_pos unnamed]
      refine ⟨?_, fun conditions => absurd unnamed conditions.1.1⟩
      rintro ⟨result, ⟨⟩⟩
    · rw [if_neg unnamed]
      by_cases taken : table.name ∈ collected.names
      · rw [if_pos ((collected.contains_iff table.name).mpr taken)]
        constructor
        · rintro ⟨result, ⟨⟩⟩
        · intro conditions
          exact absurd rfl
            ((List.nodup_append.mp conditions.2).2.2 _ taken _ List.mem_cons_self)
      · have names : (collected.insert table.name table).names =
            collected.names ++ [table.name] := by
          rw [Dictionary.names_insert, if_neg taken]
        rw [if_neg (fun found => taken ((collected.contains_iff table.name).mp found)),
          inductionHypothesis, names, List.append_assoc, List.singleton_append]
        exact ⟨fun conditions => ⟨⟨unnamed, conditions.1⟩, conditions.2⟩,
          fun conditions => ⟨conditions.1.2, conditions.2⟩⟩

/-! ### Looking up tables and links -/

theorem isSome_table?_iff {schema : Schema} {tables : List Table}
    (entries : schema.tables.entries = tables.map fun table => (table.name, table))
    {name : String} : (schema.table? name).isSome = true ↔ name ∈ tables.map Table.name := by
  rw [Option.isSome_iff_exists, List.mem_map]
  exact exists_congr fun table => table?_eq_some_iff entries

/-- No link is found to lead nowhere exactly if each leads to a table. -/
theorem danglingLink?_eq_none_iff (schema : Schema) :
    danglingLink? schema = none ↔
      ∀ table ∈ schema.tables.items, ∀ field ∈ table.fields.items,
        ∀ target ∈ field.kind.targets, (schema.table? target.name).isSome = true := by
  rw [danglingLink?, List.findSome?_eq_none_iff]
  refine forall₂_congr fun table _ => ?_
  rw [List.findSome?_eq_none_iff, linksOf, List.forall_mem_flatMap]
  refine forall₂_congr fun field _ => ?_
  rw [List.forall_mem_map]
  refine forall₂_congr fun target _ => ?_
  dsimp only
  split
  · rename_i found
    exact ⟨fun _ => found, fun _ => rfl⟩
  · rename_i missing
    exact ⟨nofun, fun found => absurd found missing⟩

/-! ### Building -/

/-- Tables can be built into a schema exactly if they are consistent. -/
theorem exists_build_iff (tables : List Table) :
    (∃ schema, build tables = .ok schema) ↔ Consistent tables := by
  have collects : (∃ result, collect Dictionary.empty tables = .ok result) ↔ _ :=
    exists_collect_iff
  rw [build]
  cases collection : collect Dictionary.empty tables with
  | error error =>
    refine ⟨nofun, fun consistent => ?_⟩
    rw [collection] at collects
    obtain ⟨result, same⟩ := collects.mpr ⟨consistent.named, consistent.distinct⟩
    cases same
  | ok collected =>
    rw [collection] at collects
    obtain ⟨named, distinct⟩ := collects.mp ⟨collected, rfl⟩
    have entries := (collect_eq_ok collection).1
    have links := danglingLink?_eq_none_iff ⟨collected⟩
    rw [items_eq entries] at links
    have finds (name : String) : ((⟨collected⟩ : Schema).table? name).isSome = true ↔
        name ∈ tables.map Table.name := isSome_table?_iff entries
    simp only [finds] at links
    dsimp only
    cases found : danglingLink? ⟨collected⟩ with
    | none => exact ⟨fun _ => ⟨named, distinct, links.mp found⟩, fun _ => ⟨⟨collected⟩, rfl⟩⟩
    | some dangling =>
      refine ⟨nofun, fun consistent => ?_⟩
      rw [links.mpr consistent.linked] at found
      cases found

/-- A schema finds a table under a name exactly if it was declared and has this name. -/
theorem table?_of_build {tables : List Table} {schema : Schema}
    (built : build tables = .ok schema) {name : String} {table : Table} :
    schema.table? name = some table ↔ table ∈ tables ∧ table.name = name :=
  table?_eq_some_iff (build_eq_ok built).1

/-- A schema keeps the tables in the order of their declaration. -/
theorem items_of_build {tables : List Table} {schema : Schema}
    (built : build tables = .ok schema) : schema.tables.items = tables :=
  items_eq (build_eq_ok built).1

end Schema

end DocQuery

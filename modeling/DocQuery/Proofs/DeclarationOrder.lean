/-
This file proves that the order in which tables are declared makes no difference, nor does it
whether a link was given to a table that had been declared already.

A link counts by the name of its table. So a table is settled by giving all its links as links to
declared tables, and lists of tables are the same declarations if the settled tables are the same up
to their order. Consistent tables stay consistent under both changes. For what is written it is
enough that two schemas find, under every name, the same table but for the kinds of its links:
statements look tables up by name and write nothing of a link but the name of what it leads to.
-/

import DocQuery.Proofs.SchemaBuilding
import DocQuery.Proofs.ValueIndependence

namespace DocQuery

/-! ### Settled tables -/

/-- The link as one to a table that has been declared. -/
def TableLink.settle (link : TableLink) : TableLink :=
  .declared link.name

/-- The kind with its links settled. -/
def FieldKind.settle : FieldKind → FieldKind
  | .scalar basic => .scalar basic
  | .record targets => .record (targets.map TableLink.settle)

/-- The field with its links settled. -/
def Field.settle (field : Field) : Field :=
  { field with kind := field.kind.settle }

/-- The table with the links of its fields settled. -/
def Table.settle (table : Table) : Table :=
  { table with fields := table.fields.map Field.settle }

theorem FieldKind.targets_settle (kind : FieldKind) :
    kind.settle.targets = kind.targets.map TableLink.settle := by
  cases kind <;> rfl

theorem Table.items_settle (table : Table) :
    table.settle.fields.items = table.fields.items.map Field.settle := by
  show (Entries.mapItems Field.settle table.fields.entries).map Prod.snd = _
  rw [Entries.mapItems, List.map_map, Dictionary.items, List.map_map]
  rfl

theorem Table.field?_settle (table : Table) (name : String) :
    table.settle.field? name = (table.field? name).map Field.settle :=
  Dictionary.find?_map Field.settle table.fields name

theorem Table.name_eq_of_settle_eq {table found : Table} (equal : table.settle = found.settle) :
    table.name = found.name := by
  show table.settle.name = found.settle.name
  rw [equal]

theorem Table.overwrite_eq_of_settle_eq {table found : Table}
    (equal : table.settle = found.settle) : table.overwrite = found.overwrite := by
  show table.settle.overwrite = found.settle.overwrite
  rw [equal]

theorem Field.name_eq_of_settle_eq {field found : Field} (equal : field.settle = found.settle) :
    field.name = found.name := by
  show field.settle.name = found.settle.name
  rw [equal]

/-- The same declarations in some order, whether links were given as declared or not. -/
def SameDeclarations (tables others : List Table) : Prop :=
  (tables.map Table.settle).Perm (others.map Table.settle)

theorem SameDeclarations.symm {tables others : List Table}
    (same : SameDeclarations tables others) : SameDeclarations others tables :=
  List.Perm.symm same

theorem map_name_settle (tables : List Table) :
    (tables.map Table.settle).map Table.name = tables.map Table.name := by
  rw [List.map_map]
  rfl

/-! ### Consistent declarations -/

namespace Schema

theorem consistent_map_settle (tables : List Table) :
    Consistent (tables.map Table.settle) ↔ Consistent tables := by
  have links (table : Table) : (∀ field ∈ table.settle.fields.items,
        ∀ target ∈ field.kind.targets, target.name ∈ tables.map Table.name) ↔
      ∀ field ∈ table.fields.items, ∀ target ∈ field.kind.targets,
        target.name ∈ tables.map Table.name := by
    rw [Table.items_settle, List.forall_mem_map]
    refine forall₂_congr fun field _ => ?_
    rw [show field.settle.kind = field.kind.settle from rfl, FieldKind.targets_settle,
      List.forall_mem_map]
    rfl
  constructor
  · rintro ⟨named, distinct, linked⟩
    rw [map_name_settle] at distinct linked
    exact ⟨fun table member => named table.settle (List.mem_map_of_mem member), distinct,
      fun table member => (links table).mp (List.forall_mem_map.mp linked table member)⟩
  · rintro ⟨named, distinct, linked⟩
    refine ⟨?_, ?_, ?_⟩
    · intro settled member
      obtain ⟨table, among, rfl⟩ := List.mem_map.mp member
      exact named table among
    · rwa [map_name_settle]
    · rw [map_name_settle]
      exact List.forall_mem_map.mpr fun table member => (links table).mpr (linked table member)

theorem Consistent.of_perm {tables others : List Table} (perm : tables.Perm others)
    (consistent : Consistent tables) : Consistent others where
  named table member := consistent.named table (perm.mem_iff.mpr member)
  distinct := (perm.map Table.name).nodup_iff.mp consistent.distinct
  linked table member field among target leads :=
    (perm.map Table.name).mem_iff.mp
      (consistent.linked table (perm.mem_iff.mpr member) field among target leads)

theorem Consistent.of_same {tables others : List Table} (same : SameDeclarations tables others)
    (consistent : Consistent tables) : Consistent others :=
  (consistent_map_settle others).mp (.of_perm same ((consistent_map_settle tables).mpr consistent))

/-! ### Schemas that find the same -/

/-- Under every name both find no table, or the same one but for the kinds of its links. -/
def FindSame (schema other : Schema) : Prop :=
  ∀ name, (schema.table? name).map Table.settle = (other.table? name).map Table.settle

theorem findSame_of_build {tables others : List Table} {schema other : Schema}
    (same : SameDeclarations tables others) (built : build tables = .ok schema)
    (otherBuilt : build others = .ok other) : FindSame schema other := by
  have found {tables : List Table} {schema : Schema} (built : build tables = .ok schema)
      (name : String) (settled : Table) : (schema.table? name).map Table.settle = some settled ↔
        settled ∈ tables.map Table.settle ∧ settled.name = name := by
    rw [Option.map_eq_some_iff, List.mem_map]
    simp only [table?_of_build built]
    constructor
    · rintro ⟨table, ⟨member, rfl⟩, rfl⟩
      exact ⟨⟨table, member, rfl⟩, rfl⟩
    · rintro ⟨⟨table, member, rfl⟩, rfl⟩
      exact ⟨table, ⟨member, rfl⟩, rfl⟩
  intro name
  refine Option.ext fun settled => ?_
  rw [found built, found otherBuilt]
  exact and_congr_left fun _ => List.Perm.mem_iff same

/-! ### What does not depend on the kinds of links -/

theorem targetNames_settle (schema : Schema) (targets : List TableLink) :
    schema.targetNames (targets.map TableLink.settle) = schema.targetNames targets := by
  induction targets with
  | nil => rfl
  | cons target rest inductionHypothesis =>
    have first : schema.resolve target.settle = schema.resolve target := rfl
    rw [List.map_cons, targetNames, targetNames, first, inductionHypothesis]

theorem elementType_settle (schema : Schema) (kind : FieldKind) :
    schema.elementType kind.settle = schema.elementType kind := by
  match kind with
  | .scalar basic => rfl
  | .record [] => rfl
  | .record (target :: rest) =>
    have names := schema.targetNames_settle (target :: rest)
    rw [List.map_cons] at names
    rw [FieldKind.settle, List.map_cons, elementType, elementType, names]
    · exact List.cons_ne_nil target rest
    · exact List.cons_ne_nil _ _

theorem typeClause_settle (schema : Schema) (field : Field) :
    schema.typeClause field.settle = schema.typeClause field := by
  have element := schema.elementType_settle field.kind
  rw [typeClause, typeClause, show field.settle.kind = field.kind.settle from rfl, element]
  rfl

theorem definition_settle (schema : Schema) (table : String) (field : Field) :
    field.settle.definition schema table = field.definition schema table := by
  have tail : field.settle.definitionTail = field.definitionTail := rfl
  rw [Field.definition, Field.definition, schema.typeClause_settle, tail]
  rfl

theorem definitions_settle (table : Table) :
    Statement.definitions table.settle = Statement.definitions table := by
  rw [Statement.definitions, Statement.definitions, Table.items_settle, List.flatMap_map]
  rfl

/-! ### What does not depend on the schema -/

namespace FindSame

variable {schema other : Schema} (same : FindSame schema other)

include same

theorem table?_eq (name : String) :
    (schema.table? name = none ∧ other.table? name = none) ∨
      ∃ table found, schema.table? name = some table ∧ other.table? name = some found ∧
        table.settle = found.settle := by
  have settled := same name
  cases here : schema.table? name with
  | none =>
    rw [here, Option.map_none] at settled
    exact .inl ⟨rfl, Option.map_eq_none_iff.mp settled.symm⟩
  | some table =>
    rw [here, Option.map_some] at settled
    obtain ⟨found, there, equal⟩ := Option.map_eq_some_iff.mp settled.symm
    exact .inr ⟨table, found, rfl, there, equal.symm⟩

theorem targetNames_eq (targets : List TableLink) :
    schema.targetNames targets = other.targetNames targets := by
  induction targets with
  | nil => rfl
  | cons target rest inductionHypothesis =>
    rw [targetNames, targetNames, resolve, resolve, inductionHypothesis]
    rcases same.table?_eq target.name with ⟨here, there⟩ | ⟨table, found, here, there, equal⟩
    · rw [here, there]
    · rw [here, there]
      dsimp only
      rw [Table.name_eq_of_settle_eq equal]

theorem typeClause_eq (field : Field) : schema.typeClause field = other.typeClause field := by
  have element : schema.elementType field.kind = other.elementType field.kind := by
    match field.kind with
    | .scalar basic => rfl
    | .record [] => rfl
    | .record (target :: rest) =>
      rw [elementType, elementType, same.targetNames_eq]
      · exact List.cons_ne_nil target rest
      · exact List.cons_ne_nil target rest
  rw [typeClause, typeClause, element]

theorem definition_eq (table : String) {field found : Field}
    (equal : field.settle = found.settle) :
    field.definition schema table = found.definition other table := by
  have written : field.settle.definition schema table = field.settle.definition other table := by
    rw [Field.definition, Field.definition, same.typeClause_eq]
  rw [← definition_settle, written, equal, definition_settle]

/-- What is done with a defined table is the same if it depends on the settled table only. -/
theorem bind_definedTable {Result : Type} {next : Table → Except Error Result}
    (alike : ∀ table found, table.settle = found.settle → next table = next found)
    (table : String) : schema.definedTable table >>= next = other.definedTable table >>= next := by
  rw [definedTable, definedTable]
  rcases same.table?_eq table with ⟨here, there⟩ | ⟨declared, found, here, there, equal⟩
  · rw [here, there]
  · rw [here, there]
    exact alike declared found equal

/-- What is done with a defined field is the same if it depends on the settled table and on the
settled field only. -/
theorem bind_definedField {Result : Type} {next otherNext : Table × Field → Except Error Result}
    (alike : ∀ both found, both.1.settle = found.1.settle → both.2.settle = found.2.settle →
      next both = otherNext found) (table field : String) :
    schema.definedField table field >>= next = other.definedField table field >>= otherNext := by
  rw [definedField, definedField, definedTable, definedTable]
  rcases same.table?_eq table with ⟨here, there⟩ | ⟨declared, found, here, there, equal⟩
  · rw [here, there]
    rfl
  · rw [here, there]
    dsimp only
    have fields : declared.settle.field? field = found.settle.field? field := by rw [equal]
    rw [Table.field?_settle, Table.field?_settle] at fields
    cases first : declared.field? field with
    | none =>
      rw [first, Option.map_none] at fields
      rw [Option.map_eq_none_iff.mp fields.symm, Table.name_eq_of_settle_eq equal]
      rfl
    | some own =>
      rw [first, Option.map_some] at fields
      obtain ⟨foundOwn, second, equalOwn⟩ := Option.map_eq_some_iff.mp fields.symm
      rw [second]
      exact alike (declared, own) (found, foundOwn) equal equalOwn.symm

/-- A statement is written alike for both schemas. -/
theorem write_eq (statement : Statement) (parameters : Parameters) :
    statement.write schema parameters = statement.write other parameters := by
  have tables (table : String) : schema.tableDefinition table = other.tableDefinition table := by
    refine same.bind_definedTable (fun table found equal => ?_) table
    rw [Table.name_eq_of_settle_eq equal, Table.overwrite_eq_of_settle_eq equal]
  have fields (table field : String) :
      schema.fieldDefinition table field = other.fieldDefinition table field := by
    refine same.bind_definedField (fun both found equal equalField => ?_) table field
    show both.2.definition schema both.1.name = found.2.definition other found.1.name
    rw [Table.name_eq_of_settle_eq equal]
    exact same.definition_eq found.1.name equalField
  have indices (table field : String) :
      schema.indexDefinition table field = other.indexDefinition table field := by
    refine same.bind_definedField (fun both found equal equalField => ?_) table field
    dsimp only
    rw [Table.name_eq_of_settle_eq equal, Field.name_eq_of_settle_eq equalField]
  unfold Statement.write
  split
  · rfl
  · cases statement with
    | defineTable table =>
      dsimp only
      rw [tables]
    | defineField table field =>
      dsimp only
      rw [fields]
    | defineIndex table field =>
      dsimp only
      rw [indices]
    | _ => rfl

theorem serialize_eq (statement : Statement) (initial : Bindings) :
    statement.serialize schema initial = statement.serialize other initial := by
  rw [Statement.serialize, Statement.serialize, same.write_eq]

end FindSame

/-! ### Declaring tables -/

/-- What the definitions of a table become, with the bindings, one after the other. -/
def definitionTexts (schema : Schema) (initial : Bindings) (table : Table) :
    List (Except Error String × Bindings) :=
  (Statement.definitions table).map fun statement => statement.serialize schema initial

theorem FindSame.definitionTexts_eq {schema other : Schema} (same : FindSame schema other)
    (initial : Bindings) (name : String) :
    (schema.table? name).map (schema.definitionTexts initial) =
      (other.table? name).map (other.definitionTexts initial) := by
  rcases same.table?_eq name with ⟨here, there⟩ | ⟨table, found, here, there, equal⟩
  · rw [here, there]
    rfl
  · have statements : Statement.definitions table = Statement.definitions found := by
      rw [← definitions_settle, equal, definitions_settle]
    rw [here, there, Option.map_some, Option.map_some, definitionTexts, definitionTexts, statements]
    exact congrArg some (List.map_congr_left fun statement _ => same.serialize_eq statement initial)

/-- Tables can be built into a schema exactly if they have names, no two the same one, and every
link of every field has the name of one of them. The schema has the tables in order and finds each
under its name. The same declarations in another order, or with links given in the other way, can be
built exactly if these can, and then the definitions of the tables are written alike. -/
theorem build_exact (tables : List Table) :
    ((∃ schema, build tables = .ok schema) ↔
      (∀ table ∈ tables, table.name ≠ "") ∧ (tables.map Table.name).Nodup ∧
        ∀ table ∈ tables, ∀ field ∈ table.fields.items, ∀ target ∈ field.kind.targets,
          target.name ∈ tables.map Table.name) ∧
    (∀ schema, build tables = .ok schema → schema.tables.items = tables ∧
      ∀ name table, schema.table? name = some table ↔ table ∈ tables ∧ table.name = name) ∧
    ∀ others, SameDeclarations tables others →
      ((∃ schema, build tables = .ok schema) ↔ ∃ schema, build others = .ok schema) ∧
      ∀ schema other, build tables = .ok schema → build others = .ok other →
        ∀ name initial, (schema.table? name).map (schema.definitionTexts initial) =
          (other.table? name).map (other.definitionTexts initial) := by
  refine ⟨?_, ?_, ?_⟩
  · rw [exists_build_iff]
    exact ⟨fun consistent => ⟨consistent.named, consistent.distinct, consistent.linked⟩,
      fun ⟨named, distinct, linked⟩ => ⟨named, distinct, linked⟩⟩
  · exact fun schema built => ⟨items_of_build built, fun _ _ => table?_of_build built⟩
  · intro others same
    refine ⟨?_, ?_⟩
    · rw [exists_build_iff, exists_build_iff]
      exact ⟨.of_same same, .of_same same.symm⟩
    · exact fun schema other built otherBuilt name initial =>
        (findSame_of_build same built otherBuilt).definitionTexts_eq initial name

/-- A table with one field, which is a link. -/
def linking (name field : String) (targets : List TableLink) : Table :=
  ⟨name, Dictionary.ofList [(field, { Field.ofKind (.record targets) with
    name := some field, owner := some name })], false⟩

/-- Two tables that link to each other, and one of them to itself, are built in both orders, and
neither is built alone. -/
theorem build_mutual_links :
    (∃ schema, build [linking "User" "post" [.deferred "Post"],
      linking "Post" "of" [.declared "User", .deferred "Post"]] = .ok schema) ∧
    (∃ schema, build [linking "Post" "of" [.deferred "User", .declared "Post"],
      linking "User" "post" [.declared "Post"]] = .ok schema) ∧
    ¬ ∃ schema, build [linking "User" "post" [.deferred "Post"]] = .ok schema := by
  obtain ⟨both, -, order⟩ := build_exact [linking "User" "post" [.deferred "Post"],
    linking "Post" "of" [.declared "User", .deferred "Post"]]
  have same : SameDeclarations [linking "User" "post" [.deferred "Post"],
      linking "Post" "of" [.declared "User", .deferred "Post"]]
      [linking "Post" "of" [.deferred "User", .declared "Post"],
        linking "User" "post" [.declared "Post"]] := List.Perm.swap _ _ _
  have builds := both.mpr ⟨by decide, by decide, by decide⟩
  refine ⟨builds, (order _ same).1.mp builds, ?_⟩
  rw [(build_exact [linking "User" "post" [.deferred "Post"]]).1]
  decide

end Schema

end DocQuery

/-
This file proves which queries can be compiled.

Two layers look at a query. The table checks its names and values, and the writing of its statement
refuses a table without a name, a select without columns and an update without assignments. What
the first layer lets through, the second accepts, so the check alone decides. It goes over names,
values and constraints in order and stops at the first that is wrong; which queries pass does not
depend on the order, and every refusal is a local error. Both facts are kept in one predicate, and
each check is put together from smaller ones as its condition is.
-/

import DocQuery.Proofs.Declaration
import DocQuery.Proofs.LocalErrors
import DocQuery.Proofs.StatementText

namespace DocQuery

/-! ### Checks and their conditions -/

/-- The check succeeds exactly under the condition, and its errors are local. -/
structure Decides (check : Except Error Unit) (condition : Prop) : Prop where
  ok_iff : check = .ok () ↔ condition
  failsLocally : FailsLocally check

namespace Decides

theorem ok {condition : Prop} (holds : condition) : Decides (.ok ()) condition :=
  ⟨iff_of_true rfl holds, .ok ()⟩

theorem error {condition : Prop} {failure : Failure} (isLocal : failure.isLocal = true)
    (fails : ¬ condition) : Decides (.error failure) condition :=
  ⟨iff_of_false (fun same => nomatch same) fails, .error isLocal⟩

theorem congr {check : Except Error Unit} {condition other : Prop}
    (decides : Decides check condition) (same : condition ↔ other) : Decides check other :=
  ⟨decides.ok_iff.trans same, decides.failsLocally⟩

/-- A check behind another one decides what both do. -/
theorem andThen {first second : Except Error Unit} {left right : Prop}
    (here : Decides first left) (later : Decides second right) :
    Decides (first >>= fun _ => second) (left ∧ right) := by
  refine ⟨?_, .bind here.failsLocally fun _ => later.failsLocally⟩
  cases first with
  | error failure =>
    have fails : ¬ left := fun holds => nomatch here.ok_iff.mpr holds
    exact iff_of_false (fun same => nomatch same) fun both => fails both.1
  | ok value =>
    have holds : left := here.ok_iff.mp rfl
    exact later.ok_iff.trans (and_iff_right holds).symm

/-- A check of one item after the other decides what each of them does. -/
theorem forall_mem {Item : Type} {each : Item → Except Error Unit}
    {check : List Item → Except Error Unit} {condition : Item → Prop} (nil : check [] = .ok ())
    (cons : ∀ item rest, check (item :: rest) = each item >>= fun _ => check rest)
    (decides : ∀ item, Decides (each item) (condition item)) (items : List Item) :
    Decides (check items) (∀ item ∈ items, condition item) := by
  induction items with
  | nil =>
    rw [nil]
    exact ok (List.forall_mem_nil condition)
  | cons item rest inductionHypothesis =>
    rw [cons]
    exact ((decides item).andThen inductionHypothesis).congr List.forall_mem_cons.symm

end Decides

/-! ### Constraints of a filter -/

namespace Filter

/-- The constraint stands somewhere in the tree of a filter. -/
inductive Contains (constraint : Constraint) : Filter → Prop
  | own {filter : Filter} (member : constraint ∈ filter.fields.entries) : Contains constraint filter
  | inAll {filter child : Filter} (branch : child ∈ filter.all)
      (deeper : Contains constraint child) : Contains constraint filter
  | inAny {filter child : Filter} (branch : child ∈ filter.any)
      (deeper : Contains constraint child) : Contains constraint filter

mutual

theorem mem_constraints_iff (constraint : Constraint) : (filter : Filter) →
    (constraint ∈ filter.constraints ↔ filter.Contains constraint)
  | ⟨fields, all, any⟩ => by
    rw [constraints, List.mem_append, List.mem_append, mem_constraintsOf_iff constraint all,
      mem_constraintsOf_iff constraint any]
    constructor
    · rintro ((member | ⟨child, branch, deeper⟩) | ⟨child, branch, deeper⟩)
      · exact .own member
      · exact .inAll branch deeper
      · exact .inAny branch deeper
    · rintro (member | ⟨branch, deeper⟩ | ⟨branch, deeper⟩)
      · exact .inl (.inl member)
      · exact .inl (.inr ⟨_, branch, deeper⟩)
      · exact .inr ⟨_, branch, deeper⟩

theorem mem_constraintsOf_iff (constraint : Constraint) : (filters : List Filter) →
    (constraint ∈ constraintsOf filters ↔ ∃ child ∈ filters, child.Contains constraint)
  | [] => by simp [constraintsOf]
  | filter :: rest => by
    simp only [constraintsOf, List.mem_append, mem_constraints_iff constraint filter,
      mem_constraintsOf_iff constraint rest, List.mem_cons, exists_eq_or_imp]

end

end Filter

/-! ### Checks of a table -/

namespace Table

/-- The name is the id or that of a field. -/
def Knows (table : Table) (name : String) : Prop :=
  name = "id" ∨ ∃ field, table.field? name = some field

/-- The name is the id, or that of a field that accepts the value. -/
def Takes (table : Table) (entry : String × Value) : Prop :=
  entry.1 = "id" ∨ ∃ field, table.field? entry.1 = some field ∧ field.accepts entry.2 = true

theorem Takes.knows {table : Table} {entry : String × Value} (takes : table.Takes entry) :
    table.Knows entry.1 :=
  takes.imp_right fun ⟨field, found, _⟩ => ⟨field, found⟩

theorem checkName_decides (table : Table) (clause name : String) :
    Decides (table.checkName clause name) (table.Knows name) := by
  unfold checkName
  have same : (name = idName ∨ (table.field? name).isSome = true) ↔ table.Knows name :=
    or_congr_right Option.isSome_iff_exists
  split
  · exact .ok (same.mp ‹_›)
  · exact .error rfl fun knows => absurd (same.mpr knows) ‹_›

theorem checkValue_decides (table : Table) (entry : String × Value) :
    Decides (table.checkValue entry.1 entry.2) (table.Takes entry) := by
  unfold checkValue
  split
  · exact .ok (.inl ‹_›)
  · rename_i other
    split
    · rename_i unknown
      refine .error rfl ?_
      rintro (isId | ⟨field, found, -⟩)
      · exact other isId
      · rw [unknown] at found
        cases found
    · rename_i field found
      split
      · exact .ok (.inr ⟨field, found, ‹_›⟩)
      · rename_i refuses
        refine .error rfl ?_
        rintro (isId | ⟨same, again, accepts⟩)
        · exact other isId
        · rw [found] at again
          cases again
          exact refuses accepts

theorem checkNames_decides (table : Table) (clause : String) (names : List String) :
    Decides (table.checkNames clause names) (∀ name ∈ names, table.Knows name) := by
  refine .forall_mem rfl ?_ (table.checkName_decides clause) names
  intro name rest
  rw [checkNames]
  cases table.checkName clause name <;> rfl

theorem checkValues_decides (table : Table) (entries : List (String × Value)) :
    Decides (table.checkValues entries) (∀ entry ∈ entries, table.Takes entry) := by
  refine .forall_mem rfl ?_ table.checkValue_decides entries
  intro entry rest
  rw [checkValues]
  cases table.checkValue entry.1 entry.2 <;> rfl

theorem checkConstraints_decides (table : Table) (constraints : List Constraint) :
    Decides (table.checkConstraints constraints)
      (∀ constraint ∈ constraints, table.Takes constraint) := by
  refine .forall_mem rfl ?_ (fun constraint =>
    ((table.checkName_decides "filter" constraint.1).andThen
      (table.checkValue_decides constraint)).congr (and_iff_right_of_imp Takes.knows)) constraints
  intro constraint rest
  rw [checkConstraints]
  cases table.checkName "filter" constraint.1 with
  | error error => rfl
  | ok value => cases table.checkValue constraint.1 constraint.2 <;> rfl

theorem checkFilter?_decides (table : Table) (filter : Option Filter) :
    Decides (table.checkFilter? filter)
      (∀ given ∈ filter, ∀ constraint, given.Contains constraint → table.Takes constraint) := by
  cases filter with
  | none => exact .ok fun given member => nomatch member
  | some given =>
    refine (table.checkConstraints_decides given.constraints).congr ?_
    simp only [Option.mem_def, Option.some_inj, forall_eq', Filter.mem_constraints_iff]

theorem checkProjection_decides (table : Table) (projection : Projection) :
    Decides (table.checkProjection projection) (projection ≠ .only []) := by
  unfold checkProjection
  split
  · exact .error rfl fun other => other rfl
  · exact .ok ‹_›

/-- Checks that the content has a value for a field that requires one. -/
def checkPresent (table : Table) (content : Dictionary Value) (field : Field) :
    Except Error Unit :=
  if field.isRequired && !content.contains field.nameOrEmpty then
    .error (Failure.validation (.missingField table.name field.nameOrEmpty))
  else .ok ()

theorem checkPresent_decides (table : Table) (content : Dictionary Value) (field : Field) :
    Decides (table.checkPresent content field)
      (field.isRequired = true → field.nameOrEmpty ∈ content.names) := by
  rw [← Dictionary.contains_iff, checkPresent]
  cases field.isRequired with
  | false => exact .ok fun required => nomatch required
  | true =>
    cases content.contains field.nameOrEmpty with
    | false => exact .error rfl fun present => nomatch present rfl
    | true => exact .ok fun _ => rfl

theorem checkRequired_decides (table : Table) (content : Dictionary Value) (fields : List Field) :
    Decides (table.checkRequired content fields)
      (∀ field ∈ fields, field.isRequired = true → field.nameOrEmpty ∈ content.names) := by
  refine .forall_mem rfl ?_ (table.checkPresent_decides content) fields
  intro field rest
  rw [checkRequired, checkPresent]
  split <;> rfl

/-! ### Queries -/

theorem checkSelect_decides (table : Table) (query : Select) :
    Decides (table.checkSelect query)
      ((∀ given ∈ query.filter, ∀ constraint, given.Contains constraint →
          table.Takes constraint) ∧
        query.projection ≠ .only [] ∧ (∀ name ∈ query.projection.fields, table.Knows name) ∧
        ∀ name ∈ query.order.names, table.Knows name) :=
  (table.checkFilter?_decides query.filter).andThen
    ((table.checkProjection_decides query.projection).andThen
      ((table.checkNames_decides "projection" query.projection.fields).andThen
        (table.checkNames_decides "ORDER BY" query.order.names)))

theorem checkUpdate_decides (table : Table) (query : Update) :
    Decides (table.checkUpdate query)
      (query.assignments.isEmpty = false ∧
        (∀ entry ∈ query.assignments.entries, table.Takes entry) ∧
        ∀ given ∈ query.filter, ∀ constraint, given.Contains constraint →
          table.Takes constraint) := by
  unfold checkUpdate
  have others := (table.checkValues_decides query.assignments.entries).andThen
    (table.checkFilter?_decides query.filter)
  cases query.assignments.isEmpty with
  | true => exact .error rfl fun condition => nomatch condition.1
  | false => exact others.congr (and_iff_right rfl).symm

theorem checkCreate_decides (table : Table) (query : Create) :
    Decides (table.checkCreate query)
      ((∀ entry ∈ query.content.entries, table.Takes entry) ∧
        ∀ field ∈ table.fields.items, field.isRequired = true →
          field.nameOrEmpty ∈ query.content.names) :=
  (table.checkValues_decides query.content.entries).andThen
    (table.checkRequired_decides query.content table.fields.items)

end Table

/-! ### Statements of queries that pass -/

/-- The statement can be written whatever has been bound before. -/
def Statement.Writable (schema : Schema) (statement : Statement) : Prop :=
  ∀ initial, ∃ text, (statement.serialize schema initial).1 = .ok text

namespace Statement.Writable

variable {schema : Schema} {table : String}

theorem compile {statement : Statement} (writable : statement.Writable schema) :
    ∃ compiled, statement.compile schema = .ok compiled := by
  obtain ⟨text, written⟩ := writable Dictionary.empty
  rw [Statement.compile]
  split
  · rename_i error bindings failed
    rw [failed] at written
    cases written
  · exact ⟨_, rfl⟩

theorem select (named : table ≠ "") (query : Select) (columns : query.projection ≠ .only []) :
    (Statement.select table query).Writable schema := by
  intro initial
  have listed : ∃ columns, query.projection.columns table = .ok columns := by
    unfold Projection.columns
    split
    · exact ⟨_, rfl⟩
    · exact absurd ‹_› columns
    · exact ⟨_, rfl⟩
    · exact ⟨_, rfl⟩
    · exact ⟨_, rfl⟩
  obtain ⟨columns, listed⟩ := listed
  rw [serialize_select schema named query listed]
  exact ⟨_, rfl⟩

theorem update (named : table ≠ "") (query : Update)
    (assigns : query.assignments.isEmpty = false) :
    (Statement.update table query).Writable schema := by
  intro initial
  rw [serialize_update schema named query assigns]
  exact ⟨_, rfl⟩

theorem create (named : table ≠ "") (query : Create) :
    (Statement.create table query).Writable schema := by
  intro initial
  rw [serialize, write, if_neg (by exact named)]
  dsimp only
  rw [Create.write]
  split <;> exact ⟨_, rfl⟩

end Statement.Writable

/-! ### Compiling a query -/

/-- What holds of every field and the name that it bears holds of every field and the name under
which it is filed. -/
theorem Table.FieldsNamed.forall_items_iff {table : Table} (named : table.FieldsNamed)
    (condition : Field → String → Prop) :
    (∀ field ∈ table.fields.items, condition field field.nameOrEmpty) ↔
      ∀ entry ∈ table.fields.entries, condition entry.2 entry.1 := by
  rw [Dictionary.items, List.forall_mem_map]
  refine forall₂_congr fun entry member => ?_
  rw [Field.nameOrEmpty, named entry member, Option.getD_some]

/-- What is compiled behind a check succeeds exactly if the check does, when every statement that
passes it is writable. -/
theorem Decides.compile_iff {check : Except Error Unit} {condition : Prop}
    (decides : Decides check condition) (database : Database) {statement : Statement}
    (writable : condition → statement.Writable database.schema) :
    ((∃ compiled, (check >>= fun _ => database.compile statement) = .ok compiled) ↔ condition) ∧
      FailsLocally (check >>= fun _ => database.compile statement) := by
  refine ⟨⟨?_, fun holds => ?_⟩, .bind decides.failsLocally fun _ =>
    statement.compile_failsLocally database.schema⟩
  · rintro ⟨compiled, compiles⟩
    cases check with
    | error error => cases compiles
    | ok value => exact decides.ok_iff.mp rfl
  · rw [decides.ok_iff.mpr holds]
    exact (writable holds).compile

namespace TableHandle

/-- Which queries on a table of a built database can be compiled. A select can if it does not
list an empty choice of columns, if it shows and sorts by the id and by fields of the table only,
and if every constraint in the tree of its filter compares the id with anything or a field with a
value that the field accepts. An update can if it assigns something and its assignments and
constraints are of that kind, and a create if its content is and has every required field. What
passes the check of the table is always written, and every refusal is a local error. -/
theorem compiles_iff_valid {tables : List Table} {defaults : Options} {database : Database}
    (declared : ∀ table ∈ tables, table.Declared)
    (built : Database.build tables defaults = .ok database) {name : String} {handle : TableHandle}
    (found : database.table name = .ok handle) :
    (∀ query : Select,
      ((∃ compiled, handle.compileSelect query = .ok compiled) ↔
        query.projection ≠ .only [] ∧
        (∀ name ∈ query.projection.fields ++ query.order.names, handle.table.Knows name) ∧
        ∀ filter ∈ query.filter, ∀ constraint, filter.Contains constraint →
          handle.table.Takes constraint) ∧
      (handle.table.checkSelect query = .ok () →
        (Statement.select handle.table.name
          { query with options := query.options.orElse database.defaults }).Writable
            database.schema) ∧
      FailsLocally (handle.compileSelect query)) ∧
    (∀ query : Update,
      ((∃ compiled, handle.compileUpdate query = .ok compiled) ↔
        query.assignments.entries ≠ [] ∧
        (∀ entry ∈ query.assignments.entries, handle.table.Takes entry) ∧
        ∀ filter ∈ query.filter, ∀ constraint, filter.Contains constraint →
          handle.table.Takes constraint) ∧
      (handle.table.checkUpdate query = .ok () →
        (Statement.update handle.table.name
          { query with options := query.options.orElse database.defaults }).Writable
            database.schema) ∧
      FailsLocally (handle.compileUpdate query)) ∧
    ∀ query : Create,
      ((∃ compiled, handle.compileCreate query = .ok compiled) ↔
        (∀ entry ∈ query.content.entries, handle.table.Takes entry) ∧
        ∀ entry ∈ handle.table.fields.entries, entry.2.isRequired = true →
          entry.1 ∈ query.content.names) ∧
      (handle.table.checkCreate query = .ok () →
        (Statement.create handle.table.name query).Writable database.schema) ∧
      FailsLocally (handle.compileCreate query) := by
  obtain ⟨rfl, member⟩ := Database.table_eq_ok found
  have files := Schema.files_of_build declared (Database.build_eq_ok built).1 member
  refine ⟨fun query => ?_, fun query => ?_, fun query => ?_⟩
  · have decides := handle.table.checkSelect_decides query
    have compiles := decides.compile_iff handle.database fun condition =>
      .select files.name_ne
        { query with options := query.options.orElse handle.database.defaults } condition.2.1
    refine ⟨compiles.1.trans ?_, fun passed => ?_, compiles.2⟩
    · rw [List.forall_mem_append]
      constructor
      · exact fun ⟨constraints, columns, shown, sorted⟩ => ⟨columns, ⟨shown, sorted⟩, constraints⟩
      · exact fun ⟨columns, ⟨shown, sorted⟩, constraints⟩ => ⟨constraints, columns, shown, sorted⟩
    · exact .select files.name_ne _ (decides.ok_iff.mp passed).2.1
  · have decides := handle.table.checkUpdate_decides query
    have compiles := decides.compile_iff handle.database fun condition =>
      .update files.name_ne
        { query with options := query.options.orElse handle.database.defaults } condition.1
    refine ⟨compiles.1.trans ?_, fun passed => ?_, compiles.2⟩
    · rw [Dictionary.isEmpty, ← Bool.not_eq_true, List.isEmpty_iff]
    · exact .update files.name_ne _ (decides.ok_iff.mp passed).1
  · have decides := handle.table.checkCreate_decides query
    have compiles := decides.compile_iff handle.database fun _ => .create files.name_ne query
    refine ⟨compiles.1.trans (and_congr_right fun _ => ?_), fun passed => ?_, compiles.2⟩
    · exact files.fieldsNamed.forall_items_iff fun field name =>
        field.isRequired = true → name ∈ query.content.names
    · exact .create files.name_ne query

/-- The age of a person, without which no person is created. -/
def requiredAge : Field :=
  { Field.ofKind (.scalar .int) with name := some "age", owner := some "Person" }

/-- The table of persons. -/
def persons : Table :=
  ⟨"Person", Dictionary.empty.insert "age" requiredAge, false⟩

/-- The database of persons. -/
def personsDatabase : Database :=
  ⟨⟨Dictionary.empty.insert "Person" persons⟩, Options.unset⟩

/-- A person with an age can be created, and one with nothing but an id cannot; nor can persons
be selected whose age is null, however deep the filter says so. -/
theorem compiles_iff_valid_persons :
    (∀ table ∈ [persons], table.Declared) ∧
    Database.build [persons] Options.unset = .ok personsDatabase ∧
    personsDatabase.table "Person" = .ok ⟨personsDatabase, persons⟩ ∧
    (∃ compiled, compileCreate ⟨personsDatabase, persons⟩
      ⟨none, Dictionary.ofList [("age", .int 3)]⟩ = .ok compiled) ∧
    (¬ ∃ compiled, compileCreate ⟨personsDatabase, persons⟩
      ⟨none, Dictionary.ofList [("id", .int 3)]⟩ = .ok compiled) ∧
    ¬ ∃ compiled, compileSelect ⟨personsDatabase, persons⟩
      { Select.empty with filter := some (Filter.ofAny
        [Filter.ofAll [⟨Dictionary.ofList [("age", .null)], [], []⟩]]) } = .ok compiled := by
  have declared : ∀ table ∈ [persons], table.Declared := by
    intro table member
    rw [List.mem_singleton.mp member]
    have made : Table.ofFields "Person" [("age", Field.ofKind (.scalar .int))] = .ok persons := rfl
    exact .ofFields made
  have built : Database.build [persons] Options.unset = .ok personsDatabase := rfl
  have found : personsDatabase.table "Person" = .ok ⟨personsDatabase, persons⟩ := rfl
  obtain ⟨selects, -, creates⟩ := compiles_iff_valid declared built found
  refine ⟨declared, built, found, (creates _).1.mpr ⟨?_, ?_⟩, ?_, ?_⟩
  · intro entry member
    rw [List.mem_singleton.mp member]
    exact .inr ⟨requiredAge, rfl, rfl⟩
  · intro entry member _
    rw [List.mem_singleton.mp member]
    exact List.mem_cons_self
  · intro compiles
    have present := ((creates _).1.mp compiles).2 ("age", requiredAge) List.mem_cons_self rfl
    exact absurd (List.mem_singleton.mp present) (by decide)
  · intro compiles
    have takes := ((selects _).1.mp compiles).2.2 _ rfl ("age", .null)
      (.inAny List.mem_cons_self (.inAll List.mem_cons_self (.own List.mem_cons_self)))
    obtain isId | ⟨field, same, accepts⟩ := takes
    · exact absurd isId (by decide)
    · cases same
      cases accepts

end TableHandle

end DocQuery

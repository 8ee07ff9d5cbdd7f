/-
This file proves what a table holds after any run of registrations.

A table is made from fields under their keys, and then fields are added one by one and the table
may be marked. A field is refused if it has no name, if its name is taken or if a table owns it; a
refused field leaves no trace. One that is accepted goes to the end and has its name and its owner
settled there. So a table holds exactly the accepted fields, in their order, each owned by the
table and going by the name under which it is filed. Nothing that is done to a field takes its
owner away, so whatever a table holds is refused from then on, by every table and under every name.
-/

import DocQuery.Proofs.Declaration

namespace DocQuery

/-! ### Adding one field -/

/-- The field as a table holds it under a name. -/
def Field.attached (field : Field) (table name : String) : Field :=
  { field with name := some name, owner := some table }

/-- Nothing but an owner or another name keeps a field from being attached. -/
theorem Field.attach_cases (field : Field) (table name : String) :
    (∃ owner, field.owner = some owner ∧ field.attach table name =
      .error (Failure.invalidSchema (.alreadyOwned name owner table))) ∨
    (field.owner = none ∧ ∃ own, field.name = some own ∧ own ≠ name ∧ field.attach table name =
      .error (Failure.invalidSchema (.misnamed own name table))) ∨
    (field.owner = none ∧ (∀ own, field.name = some own → own = name) ∧
      field.attach table name = .ok (field.attached table name)) := by
  unfold attach
  cases field.owner with
  | some owner => exact .inl ⟨owner, rfl, rfl⟩
  | none =>
    cases field.name with
    | none => exact .inr (.inr ⟨rfl, (fun own named => nomatch named), rfl⟩)
    | some own =>
      by_cases same : own = name
      · refine .inr (.inr ⟨rfl, ?_, if_pos same⟩)
        rintro _ ⟨⟩
        exact same
      · exact .inr (.inl ⟨rfl, own, rfl, same, if_neg same⟩)

namespace Table

/-- A field is not to be filed under a name: the name is taken, a table owns the field, or the
field goes by another name. -/
def Refuses (taken : List String) (entry : String × Field) : Prop :=
  entry.1 ∈ taken ∨ (∃ owner, entry.2.owner = some owner) ∨
    ∃ own, entry.2.name = some own ∧ own ≠ entry.1

/-- The table with one more field at the end. -/
def holding (table : Table) (name : String) (field : Field) : Table :=
  { table with fields := table.fields.insert name (field.attached table.name name) }

theorem entries_holding (table : Table) {name : String} (fresh : name ∉ table.fields.names)
    (field : Field) :
    (table.holding name field).fields.entries =
      table.fields.entries ++ [(name, field.attached table.name name)] :=
  Entries.put_of_not_mem _ fresh

/-- A field is inserted unless there is a reason to refuse it, which leaves the table as it is. -/
theorem insert_cases (table : Table) (name : String) (field : Field) :
    (Refuses table.fields.names (name, field) ∧
      ∃ error, table.insert name field = (.error error, table)) ∨
    (¬ Refuses table.fields.names (name, field) ∧
      table.insert name field = (.ok (), table.holding name field)) := by
  unfold insert
  by_cases taken : name ∈ table.fields.names
  · rw [if_pos ((table.fields.contains_iff name).mpr taken)]
    exact .inl ⟨.inl taken, _, rfl⟩
  · rw [if_neg (mt (table.fields.contains_iff name).mp taken)]
    obtain ⟨owner, owned, refused⟩ | ⟨-, own, named, other, refused⟩ | ⟨unowned, same, attached⟩ :=
      field.attach_cases table.name name
    · rw [refused]
      exact .inl ⟨.inr (.inl ⟨owner, owned⟩), _, rfl⟩
    · rw [refused]
      exact .inl ⟨.inr (.inr ⟨own, named, other⟩), _, rfl⟩
    · rw [attached]
      refine .inr ⟨?_, rfl⟩
      rintro (present | ⟨owner, owned⟩ | ⟨own, named, other⟩)
      · exact taken present
      · rw [unowned] at owned
        cases owned
      · exact other (same own named)

/-- What becomes of a field that is added: the first of three reasons refuses it and leaves the
table as it is, or the field is held at the end. -/
theorem register_cases (table : Table) (field : Field) :
    (field.name = none ∧ table.register field = (.error (Failure.unsetName "field"), table)) ∨
    (∃ name, field.name = some name ∧ name ∈ table.fields.names ∧
      table.register field = (.error (Failure.duplicateField table.name name), table)) ∨
    (∃ name owner, field.name = some name ∧ name ∉ table.fields.names ∧
      field.owner = some owner ∧ table.register field =
        (.error (Failure.invalidSchema (.alreadyOwned name owner table.name)), table)) ∨
    (∃ name, field.name = some name ∧ name ∉ table.fields.names ∧ field.owner = none ∧
      table.register field = (.ok (), table.holding name field)) := by
  unfold register
  cases named : field.name with
  | none => exact .inl ⟨rfl, rfl⟩
  | some name =>
    refine .inr ?_
    dsimp only
    unfold insert
    by_cases taken : name ∈ table.fields.names
    · exact .inl ⟨name, rfl, taken, if_pos ((table.fields.contains_iff name).mpr taken)⟩
    · rw [if_neg (mt (table.fields.contains_iff name).mp taken)]
      obtain ⟨owner, owned, refused⟩ | ⟨-, own, same, other, -⟩ | ⟨unowned, -, attached⟩ :=
        field.attach_cases table.name name
      · rw [refused]
        exact .inr (.inl ⟨name, owner, rfl, taken, owned, rfl⟩)
      · rw [named] at same
        cases same
        exact absurd rfl other
      · rw [attached]
        exact .inr (.inr ⟨name, rfl, taken, unowned, rfl⟩)

/-- A field is held at the end, or it is refused and the table is left as it was. -/
theorem register_refuses_or_holds (table : Table) (field : Field) :
    (∃ error, table.register field = (.error error, table)) ∨
    ∃ name, field.name = some name ∧ name ∉ table.fields.names ∧ field.owner = none ∧
      table.register field = (.ok (), table.holding name field) := by
  obtain ⟨-, refusal⟩ | ⟨_, -, -, refusal⟩ | ⟨_, _, -, -, -, refusal⟩ | held :=
    table.register_cases field
  · exact .inl ⟨_, refusal⟩
  · exact .inl ⟨_, refusal⟩
  · exact .inl ⟨_, refusal⟩
  · exact .inr held

/-! ### Runs -/

/-- A call on a table that has been made. -/
inductive Change where
  | add (field : Field)
  | overwrite

/-- How a call on a table ends, and the table after it. -/
def apply (table : Table) : Change → Except Error Unit × Table
  | .add field => table.addFields [field]
  | .overwrite => (.ok (), { table with overwrite := true })

/-- The table after a run of calls, whatever becomes of each. -/
def after (table : Table) : List Change → Table
  | [] => table
  | change :: rest => (table.apply change).2.after rest

/-- The fields that a run of calls adds without failing, in order, each with its name. -/
def registrations (table : Table) : List Change → List (String × Field)
  | [] => []
  | .overwrite :: rest => (table.apply .overwrite).2.registrations rest
  | .add field :: rest =>
    match table.apply (.add field) with
    | (.ok (), grown) => (field.nameOrEmpty, field) :: grown.registrations rest
    | (.error _, kept) => kept.registrations rest

theorem apply_add (table : Table) (field : Field) :
    table.apply (.add field) = table.register field := by
  rw [apply, addFields]
  rcases table.register field with ⟨_ | _, _⟩ <;> rfl

theorem apply_of_refused {table : Table} {field : Field} {error : Error}
    (refused : (table.register field).1 = .error error) :
    table.apply (.add field) = (.error error, table) := by
  obtain ⟨cause, refusal⟩ | ⟨name, -, -, -, added⟩ := table.register_refuses_or_holds field
  · rw [refusal] at refused
    cases refused
    rw [apply_add, refusal]
  · rw [added] at refused
    cases refused

/-- The table of this name holds exactly these fields, in this order, each under its key. -/
structure Holds (table : Table) (name : String) (registered : List (String × Field))
    (overwrite : Bool) : Prop where
  name_eq : table.name = name
  distinct : (Entries.names registered).Nodup
  entries_eq : table.fields.entries =
    registered.map fun entry => (entry.1, entry.2.attached name entry.1)
  overwrite_eq : table.overwrite = overwrite

namespace Holds

variable {table grown : Table} {name : String} {registered : List (String × Field)}
  {overwrite : Bool}

theorem names_eq (holds : table.Holds name registered overwrite) :
    table.fields.names = Entries.names registered := by
  rw [Dictionary.names, Entries.names, holds.entries_eq, List.map_map]
  rfl

theorem withoutFields (name : String) : (withoutFields name).Holds name [] false :=
  ⟨rfl, List.nodup_nil, rfl, rfl⟩

theorem marked (holds : table.Holds name registered overwrite) :
    ({ table with overwrite := true } : Table).Holds name registered true :=
  ⟨holds.name_eq, holds.distinct, holds.entries_eq, rfl⟩

theorem holding (holds : table.Holds name registered overwrite) {key : String}
    (fresh : key ∉ table.fields.names) (field : Field) :
    (table.holding key field).Holds name (registered ++ [(key, field)]) overwrite := by
  refine ⟨holds.name_eq, ?_, ?_, holds.overwrite_eq⟩
  · rw [holds.names_eq] at fresh
    rw [Entries.names_append, List.nodup_append]
    refine ⟨holds.distinct, by simp, ?_⟩
    rintro earlier member _ single rfl
    obtain rfl : earlier = key := List.mem_singleton.mp single
    exact fresh member
  · rw [entries_holding table fresh, holds.entries_eq, holds.name_eq, List.map_append,
      List.map_singleton]

theorem insertAll (holds : table.Holds name registered overwrite) {fields : List (String × Field)}
    (inserted : table.insertAll fields = .ok grown) :
    grown.Holds name (registered ++ fields) overwrite := by
  induction fields generalizing table registered with
  | nil =>
    cases inserted
    rwa [List.append_nil]
  | cons entry rest inductionHypothesis =>
    rw [Table.insertAll] at inserted
    obtain ⟨-, error, refused⟩ | ⟨accepted, added⟩ := table.insert_cases entry.1 entry.2
    · rw [refused] at inserted
      cases inserted
    · rw [added] at inserted
      have fresh : entry.1 ∉ table.fields.names := fun taken => accepted (.inl taken)
      have later := inductionHypothesis (holds.holding fresh entry.2) inserted
      rwa [List.append_assoc, List.singleton_append] at later

/-- A run of calls leaves exactly what it registered behind what was there. -/
theorem after (holds : table.Holds name registered overwrite) (changes : List Change) :
    ∃ mark, (table.after changes).Holds name (registered ++ table.registrations changes) mark ∧
      (mark = true ↔ overwrite = true ∨ Change.overwrite ∈ changes) := by
  induction changes generalizing table registered overwrite with
  | nil =>
    refine ⟨overwrite, ?_, by simp⟩
    rwa [registrations, List.append_nil]
  | cons change rest inductionHypothesis =>
    cases change with
    | overwrite =>
      obtain ⟨mark, later, marked⟩ := inductionHypothesis holds.marked
      refine ⟨mark, later, ?_⟩
      rw [marked]
      simp
    | add field =>
      have unmarked : (Change.overwrite ∈ Change.add field :: rest) ↔ Change.overwrite ∈ rest := by
        simp
      rw [unmarked]
      obtain ⟨error, refusal⟩ | ⟨key, named, fresh, -, added⟩ :=
        table.register_refuses_or_holds field
      · rw [Table.after, registrations, apply_add, refusal]
        exact inductionHypothesis holds
      · rw [Table.after, registrations, apply_add, added]
        have own : field.nameOrEmpty = key := by rw [Field.nameOrEmpty, named, Option.getD_some]
        obtain ⟨mark, later, marked⟩ := inductionHypothesis (holds.holding fresh field)
        refine ⟨mark, ?_, marked⟩
        rw [List.append_assoc, List.singleton_append] at later
        rwa [own]

end Holds

/-! ### Refusals -/

/-- Fields are inserted one after the other unless one of them is refused when its turn comes. -/
theorem insertAll_fails_iff (table : Table) (fields : List (String × Field)) :
    (∃ error, table.insertAll fields = .error error) ↔
      ∃ earlier entry later, fields = earlier ++ entry :: later ∧
        Refuses (table.fields.names ++ Entries.names earlier) entry := by
  induction fields generalizing table with
  | nil => simp [insertAll]
  | cons first rest inductionHypothesis =>
    rw [insertAll]
    obtain ⟨refuses, error, refused⟩ | ⟨accepted, added⟩ := table.insert_cases first.1 first.2
    · rw [refused]
      refine iff_of_true ⟨error, rfl⟩ ⟨[], first, rest, rfl, ?_⟩
      rwa [Entries.names_nil, List.append_nil]
    · -- The first field is held, so its name is one more that is taken.
      have taken : (table.holding first.1 first.2).fields.names =
          table.fields.names ++ [first.1] := by
        rw [holding, Dictionary.names_insert, if_neg fun present => accepted (.inl present)]
      rw [added]
      dsimp only
      rw [inductionHypothesis, taken]
      constructor
      · rintro ⟨earlier, entry, later, rfl, refuses⟩
        refine ⟨first :: earlier, entry, later, rfl, ?_⟩
        rwa [List.append_assoc, List.singleton_append] at refuses
      · rintro ⟨earlier, entry, later, parts, refuses⟩
        cases earlier with
        | nil =>
          cases parts
          rw [Entries.names_nil, List.append_nil] at refuses
          exact absurd refuses accepted
        | cons _ others =>
          cases parts
          refine ⟨others, entry, later, rfl, ?_⟩
          rwa [List.append_assoc, List.singleton_append]

theorem ofFields_fails_iff (name : String) (fields : List (String × Field)) :
    (∃ error, ofFields name fields = .error error) ↔
      ∃ earlier entry later, fields = earlier ++ entry :: later ∧
        Refuses (Entries.names earlier) entry :=
  (withoutFields name).insertAll_fails_iff fields

/-- A field that a table owns is refused by every table, under every name. -/
theorem refused_of_owned {field : Field} {owner : String} (owned : field.owner = some owner) :
    (∀ table : Table, ∃ error, table.register field = (.error error, table)) ∧
      ∀ name key fields, (key, field) ∈ fields → ∃ error, ofFields name fields = .error error := by
  constructor
  · intro table
    obtain refusal | ⟨name, -, -, unowned, -⟩ := table.register_refuses_or_holds field
    · exact refusal
    · rw [owned] at unowned
      cases unowned
  · intro name key fields member
    obtain ⟨earlier, later, parts⟩ := List.append_of_mem member
    exact (ofFields_fails_iff name fields).mpr
      ⟨earlier, (key, field), later, parts, .inr (.inl ⟨owner, owned⟩)⟩

/-- When a field that is added is refused, with which error, and that the table then is as it
was. The reasons are looked for in this order. -/
structure RefusesExactly (table : Table) (field : Field) : Prop where
  fails_iff : (∃ error, (table.register field).1 = .error error) ↔
    field.name = none ∨ (∃ key ∈ table.fields.names, field.name = some key) ∨
      ∃ owner, field.owner = some owner
  unnamed : field.name = none → (table.register field).1 = .error (Failure.unsetName "field")
  taken : ∀ key ∈ table.fields.names, field.name = some key →
    (table.register field).1 = .error (Failure.duplicateField table.name key)
  owned : ∀ key owner, key ∉ table.fields.names → field.name = some key →
    field.owner = some owner → (table.register field).1 =
      .error (Failure.invalidSchema (.alreadyOwned key owner table.name))
  kept : ∀ error, (table.register field).1 = .error error →
    table.apply (.add field) = (.error error, table)

theorem refusesExactly (table : Table) (field : Field) : table.RefusesExactly field := by
  obtain ⟨unnamed, refusal⟩ | ⟨name, named, taken, refusal⟩ |
    ⟨name, owner, named, fresh, owned, refusal⟩ | ⟨name, named, fresh, unowned, added⟩ :=
      table.register_cases field
  · have refused := congrArg Prod.fst refusal
    exact ⟨iff_of_true ⟨_, refused⟩ (.inl unnamed), fun _ => refused,
      (fun key _ named => nomatch unnamed.symm.trans named),
      (fun key owner _ named => nomatch unnamed.symm.trans named), fun _ => apply_of_refused⟩
  · have refused := congrArg Prod.fst refusal
    refine ⟨iff_of_true ⟨_, refused⟩ (.inr (.inl ⟨name, taken, named⟩)),
      (fun unnamed => nomatch unnamed.symm.trans named), ?_, ?_, fun _ => apply_of_refused⟩
    · intro key _ same
      obtain rfl : name = key := Option.some.inj (named.symm.trans same)
      exact refused
    · intro key owner fresh same
      obtain rfl : name = key := Option.some.inj (named.symm.trans same)
      exact absurd taken fresh
  · have refused := congrArg Prod.fst refusal
    refine ⟨iff_of_true ⟨_, refused⟩ (.inr (.inr ⟨owner, owned⟩)),
      (fun unnamed => nomatch unnamed.symm.trans named), ?_, ?_, fun _ => apply_of_refused⟩
    · intro key taken same
      obtain rfl : name = key := Option.some.inj (named.symm.trans same)
      exact absurd taken fresh
    · intro key other _ same sameOwner
      obtain rfl : name = key := Option.some.inj (named.symm.trans same)
      obtain rfl : owner = other := Option.some.inj (owned.symm.trans sameOwner)
      exact refused
  · have noReason : ¬ (field.name = none ∨ (∃ key ∈ table.fields.names, field.name = some key) ∨
        ∃ owner, field.owner = some owner) := by
      rintro (unnamed | ⟨key, taken, same⟩ | ⟨owner, owned⟩)
      · exact nomatch unnamed.symm.trans named
      · obtain rfl : name = key := Option.some.inj (named.symm.trans same)
        exact fresh taken
      · exact nomatch unowned.symm.trans owned
    refine ⟨iff_of_false ?_ noReason, fun unnamed => absurd (.inl unnamed) noReason,
      fun key taken same => absurd (.inr (.inl ⟨key, taken, same⟩)) noReason,
      fun _ owner _ _ owned => absurd (.inr (.inr ⟨owner, owned⟩)) noReason,
      fun _ => apply_of_refused⟩
    rintro ⟨error, refused⟩
    rw [added] at refused
    cases refused

/-! ### The assertions of the verification -/

/-- The table was made from fields, and a run of calls followed. -/
def Constructed (table : Table) : Prop :=
  ∃ name fields made changes, ofFields name fields = .ok made ∧ made.after changes = table

/-- Each field of the table goes by the name under which it is filed and is owned by the table. -/
def isVerified (table : Table) : Bool :=
  (table.fieldNames.zip table.fields.items).all fun entry =>
    entry.2.name == some entry.1 && entry.2.owner == some table.name

theorem Holds.isVerified {table : Table} {name : String} {registered : List (String × Field)}
    {overwrite : Bool} (holds : table.Holds name registered overwrite) :
    table.isVerified = true := by
  rw [Table.isVerified, List.all_eq_true]
  intro entry member
  rw [fieldNames, Dictionary.names, Entries.names, Dictionary.items, List.zip_map',
    holds.entries_eq, List.map_map] at member
  obtain ⟨original, -, rfl⟩ := List.mem_map.mp member
  simp [holds.name_eq, Field.attached]

/-- A table that was made holds, after any calls, what was registered. -/
theorem holds_after {name : String} {fields : List (String × Field)} {made : Table}
    (making : ofFields name fields = .ok made) (changes : List Change) :
    ∃ marked, (made.after changes).Holds name (fields ++ made.registrations changes) marked ∧
      (marked = true ↔ Change.overwrite ∈ changes) := by
  have first := (Holds.withoutFields name).insertAll making
  obtain ⟨marked, holds, mark⟩ := first.after changes
  exact ⟨marked, holds, mark.trans (or_iff_right Bool.false_ne_true)⟩

end Table

/-- What the verification of a schema asserts of all its tables before it looks at their links. -/
def Schema.isVerified (schema : Schema) : Bool :=
  schema.tables.items.all Table.isVerified

theorem Schema.isVerified_of_collect {tables : List Table} {collected : Dictionary Table}
    (constructed : ∀ table ∈ tables, table.Constructed)
    (collects : collect Dictionary.empty tables = .ok collected) :
    (Schema.mk collected).isVerified = true := by
  obtain ⟨entries, -⟩ := collect_eq_ok collects
  rw [isVerified, items_eq entries, List.all_eq_true]
  intro table member
  obtain ⟨name, fields, made, changes, making, rfl⟩ := constructed table member
  obtain ⟨marked, holds, -⟩ := Table.holds_after making changes
  exact holds.isVerified

namespace Table

/-! ### The whole of a construction -/

/-- What making a table and any run of calls after it come to. Making a table fails exactly if some
entry repeats an earlier key, has an owner, or was named differently from its key. A table that
was made holds, after any run of calls, exactly the fields that were registered, in this order and
under distinct keys, each going by its key and owned by the table, and it is marked exactly if the
run marked it. Adding a field fails exactly if the field has no name, its name is a key already,
or it has an owner; the first of these decides the error, and the table is left as it was. What
has the owner of a field that such a table holds is refused by every table and under every
name. So the assertions of the verification hold of all tables that were constructed like this. -/
theorem construction_exact :
    (∀ (name : String) (fields : List (String × Field)),
      (∃ error, ofFields name fields = .error error) ↔
        ∃ earlier key field later, fields = earlier ++ (key, field) :: later ∧
          (key ∈ Entries.names earlier ∨ (∃ owner, field.owner = some owner) ∨
            ∃ own, field.name = some own ∧ own ≠ key)) ∧
    (∀ (name : String) (fields : List (String × Field)) (made : Table) (changes : List Change),
      ofFields name fields = .ok made →
        (∃ marked, (made.after changes).Holds name (fields ++ made.registrations changes) marked ∧
          (marked = true ↔ Change.overwrite ∈ changes)) ∧
        (∀ entry ∈ (made.after changes).fields.entries,
          entry.2.name = some entry.1 ∧ entry.2.owner = some name) ∧
        (∀ field, (made.after changes).RefusesExactly field) ∧
        ∀ stored ∈ (made.after changes).fields.items, ∀ taken : Field,
          taken.owner = stored.owner →
            (∀ other : Table, ∃ error, other.register taken = (.error error, other)) ∧
            ∀ otherName key others, (key, taken) ∈ others →
              ∃ error, ofFields otherName others = .error error) ∧
    ∀ (tables : List Table) (collected : Dictionary Table),
      (∀ table ∈ tables, table.Constructed) →
        Schema.collect Dictionary.empty tables = .ok collected →
          (Schema.mk collected).isVerified = true := by
  refine ⟨fun name fields => ?_, fun name fields made changes making => ?_,
    fun tables collected => Schema.isVerified_of_collect⟩
  · rw [ofFields_fails_iff]
    constructor
    · rintro ⟨earlier, entry, later, parts, refuses⟩
      exact ⟨earlier, entry.1, entry.2, later, parts, refuses⟩
    · rintro ⟨earlier, key, field, later, parts, refuses⟩
      exact ⟨earlier, (key, field), later, parts, refuses⟩
  · obtain ⟨marked, holds, mark⟩ := holds_after making changes
    have settled : ∀ entry ∈ (made.after changes).fields.entries,
        entry.2.name = some entry.1 ∧ entry.2.owner = some name := by
      intro entry member
      rw [holds.entries_eq] at member
      obtain ⟨original, -, rfl⟩ := List.mem_map.mp member
      exact ⟨rfl, rfl⟩
    refine ⟨⟨marked, holds, mark⟩, settled, (made.after changes).refusesExactly, ?_⟩
    intro stored member taken sameOwner
    obtain ⟨entry, filed, rfl⟩ := List.mem_map.mp member
    exact refused_of_owned (sameOwner.trans (settled entry filed).2)

/-- Calls on a table of users that has a name. The first two and the fourth add a field that is
refused: its name is taken, it has no name, it belongs to a team. -/
def userChanges : List Change :=
  [.add { Field.ofKind (.scalar .int) with name := some "name" },
    .add (Field.ofKind (.scalar .int)), .overwrite,
    .add { Field.ofKind (.scalar .int) with name := some "age", owner := some "Team" },
    .add { Field.ofKind (.scalar .int) with name := some "age" }]

/-- The name of a user, as the table of users holds it. -/
def heldName : Field := (Field.ofKind (.scalar .string)).attached "User" "name"

/-- The table of users before the calls. -/
def namedUser : Table :=
  ⟨"User", Dictionary.empty.insert "name" heldName, false⟩

/-- Refused fields leave no trace, and the name of a user does not become the title of a team. -/
theorem construction_users :
    ofFields "User" [("name", Field.ofKind (.scalar .string))] = .ok namedUser ∧
      (namedUser.after userChanges).fields.names = ["name", "age"] ∧
      (namedUser.after userChanges).overwrite = true ∧
      (∃ error, ((namedUser.after userChanges).register
        { Field.ofKind (.scalar .int) with name := some "name" }).1 = .error error) ∧
      heldName ∈ (namedUser.after userChanges).fields.items ∧
      (∃ error, ofFields "Team" [("title", { heldName with name := some "title" })] =
        .error error) ∧
      ∃ collected,
        Schema.collect Dictionary.empty [namedUser.after userChanges] = .ok collected ∧
          (Schema.mk collected).isVerified = true := by
  have making : ofFields "User" [("name", Field.ofKind (.scalar .string))] = .ok namedUser := rfl
  obtain ⟨-, runs, verified⟩ := construction_exact
  obtain ⟨⟨marked, holds, mark⟩, -, refuses, again⟩ := runs "User" _ _ userChanges making
  have held := again heldName List.mem_cons_self { heldName with name := some "title" } rfl
  refine ⟨making, holds.names_eq, ?_, ?_, List.mem_cons_self, ?_, _, rfl, ?_⟩
  · rw [holds.overwrite_eq, mark]
    simp [userChanges]
  · exact (refuses _).fails_iff.mpr (.inr (.inl ⟨"name", List.mem_cons_self, rfl⟩))
  · exact held.2 "Team" "title" _ List.mem_cons_self
  · refine verified [namedUser.after userChanges] _ ?_ rfl
    intro table member
    rw [List.mem_singleton.mp member]
    exact ⟨_, _, _, userChanges, making, rfl⟩

end Table

end DocQuery

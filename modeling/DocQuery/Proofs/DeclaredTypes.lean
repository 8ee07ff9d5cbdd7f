/-
This file proves whose types the checks of a table keep.

A check goes over every entry of a content, every assignment and every constraint of a filter, at
whatever depth, and looks up the field of its name. So what has passed holds a value that the field
accepts. One name is not looked up: that of the id, which every record has a value for. A table may
declare a field of this name all the same, and the field is then never asked. Nothing escapes it
only if it has nothing to refuse, and that is so exactly if it is flexible.
-/

import DocQuery.Proofs.QueryAcceptance

namespace DocQuery

/-! ### What a field refuses -/

/-- A value that the field refuses, unless it is flexible. -/
def Field.misfit (field : Field) : Value :=
  if field.isArray then .null else .list []

theorem FieldKind.accepts_list (kind : FieldKind) (items : List Value) :
    kind.accepts (.list items) = false := by
  cases kind with
  | scalar basic => cases basic <;> rfl
  | record targets => rfl

theorem Field.accepts_misfit (field : Field) : field.accepts field.misfit = field.isFlexible := by
  unfold accepts misfit
  cases field.isFlexible with
  | true => rfl
  | false =>
    cases field.isArray with
    | true => rfl
    | false => exact field.kind.accepts_list []

namespace Table

/-! ### Values that fit the declared types -/

/-- The value is one that the field of this name accepts, if there is such a field. -/
def Fits (table : Table) (name : String) (value : Value) : Prop :=
  ∀ field, table.field? name = some field → field.accepts value = true

/-- A field that goes by the name of the id is flexible. -/
def LeavesIdFree (table : Table) : Prop :=
  ∀ field, table.field? "id" = some field → field.isFlexible = true

variable {table : Table} {name : String} {value : Value}

/-- What is taken under a name fits it, be the name that of the id or not. -/
theorem Takes.fits (takes : table.Takes (name, value)) (free : name = "id" → table.LeavesIdFree) :
    table.Fits name value := by
  intro field declared
  rcases takes with isId | ⟨found, same, accepts⟩
  · cases isId
    unfold Field.accepts
    exact if_pos (free rfl field declared)
  · cases same.symm.trans declared
    exact accepts

/-- A field that accepts its misfit as well is flexible. -/
theorem leavesIdFree_of_fits
    (fits : ∀ field, table.field? "id" = some field → table.Fits "id" field.misfit) :
    table.LeavesIdFree := by
  intro field declared
  rw [← field.accepts_misfit]
  exact fits field declared field declared

/-! ### What passes the checks -/

/-- Whatever constraint on this name a filter has that passes, its value fits. -/
def FiltersFit (table : Table) (name : String) : Prop :=
  ∀ filter, table.checkFilter filter = .ok () →
    ∀ value, filter.Contains (name, value) → table.Fits name value

/-- Whatever an update that passes assigns to this name or compares it with, it fits. -/
def UpdatesFit (table : Table) (name : String) : Prop :=
  ∀ query : Update, table.checkUpdate query = .ok () →
    ∀ value, ((name, value) ∈ query.assignments.entries ∨
      ∃ filter ∈ query.filter, filter.Contains (name, value)) → table.Fits name value

/-- Whatever a create that passes stores under this name, it fits. -/
def CreatesFit (table : Table) (name : String) : Prop :=
  ∀ query : Create, table.checkCreate query = .ok () →
    ∀ value, (name, value) ∈ query.content.entries → table.Fits name value

theorem filtersFit_iff (table : Table) (name : String) :
    table.FiltersFit name ↔ (name = "id" → table.LeavesIdFree) := by
  constructor
  · rintro fit rfl
    refine leavesIdFree_of_fits fun field _ => ?_
    have passes : table.checkFilter ⟨Dictionary.ofList [("id", field.misfit)], [], []⟩ = .ok () :=
      rfl
    exact fit _ passes field.misfit (.own List.mem_cons_self)
  · intro free filter passes value member
    have takes := (table.checkFilter?_decides (some filter)).ok_iff.mp passes
    exact (takes filter rfl _ member).fits free

theorem updatesFit_iff (table : Table) (name : String) :
    table.UpdatesFit name ↔ (name = "id" → table.LeavesIdFree) := by
  constructor
  · rintro fit rfl
    refine leavesIdFree_of_fits fun field _ => ?_
    have passes : table.checkUpdate
        { Update.empty with assignments := Dictionary.ofList [("id", field.misfit)] } = .ok () :=
      rfl
    exact fit _ passes field.misfit (.inl List.mem_cons_self)
  · intro free query passes value somewhere
    obtain ⟨-, assigned, compared⟩ := (table.checkUpdate_decides query).ok_iff.mp passes
    rcases somewhere with member | ⟨filter, given, member⟩
    · exact (assigned _ member).fits free
    · exact (compared filter given _ member).fits free

/-- A create that passes does so with any id in its content. -/
theorem checkCreate_insert_id {query : Create} (passes : table.checkCreate query = .ok ())
    (value : Value) :
    table.checkCreate { query with content := query.content.insert "id" value } = .ok () := by
  obtain ⟨takes, complete⟩ := (table.checkCreate_decides query).ok_iff.mp passes
  refine (table.checkCreate_decides _).ok_iff.mpr
    ⟨fun entry member => ?_, fun field member required => ?_⟩
  · rcases Entries.mem_put member with rfl | earlier
    · exact .inl rfl
    · exact takes entry earlier
  · have present := complete field member required
    rw [Dictionary.names_insert]
    split
    · exact present
    · exact List.mem_append_left _ present

theorem createsFit_iff (table : Table) (name : String) :
    table.CreatesFit name ↔
      (name = "id" → (∃ query, table.checkCreate query = .ok ()) → table.LeavesIdFree) := by
  constructor
  · rintro fit rfl ⟨query, passes⟩
    refine leavesIdFree_of_fits fun field _ => ?_
    have stored : ("id", field.misfit) ∈ (query.content.insert "id" field.misfit).entries :=
      Entries.mem_of_find? (query.content.find?_insert_self "id" field.misfit)
    exact fit _ (checkCreate_insert_id passes field.misfit) field.misfit stored
  · intro free query passes value member
    have takes := ((table.checkCreate_decides query).ok_iff.mp passes).1 _ member
    exact takes.fits fun isId => free isId ⟨query, passes⟩

/-- Under every name but that of the id, all that passes a check fits the declared type. Under that
of the id it does exactly if the table declares no field of this name or a flexible one. Otherwise
filters and updates pass that do not fit, and so do creates, unless no create passes at all. -/
theorem declaredTypes_kept_iff (table : Table) (name : String) :
    (table.FiltersFit name ↔ (name = "id" → table.LeavesIdFree)) ∧
    (table.UpdatesFit name ↔ (name = "id" → table.LeavesIdFree)) ∧
    (table.CreatesFit name ↔
      (name = "id" → (∃ query, table.checkCreate query = .ok ()) → table.LeavesIdFree)) :=
  ⟨filtersFit_iff table name, updatesFit_iff table name, createsFit_iff table name⟩

/-- The id of a user is declared as a number, and is a text in a create, in an update and deep in a
filter that pass. -/
theorem declaredTypes_escaped :
    ∃ table field, Table.ofFields "User" [("id", Field.ofKind (.scalar .int))] = .ok table ∧
      table.field? "id" = some field ∧ field.accepts (.string "abc") = false ∧
      table.checkCreate ⟨none, Dictionary.ofList [("id", .string "abc")]⟩ = .ok () ∧
      table.checkUpdate
        { Update.empty with assignments := Dictionary.ofList [("id", .string "abc")] } = .ok () ∧
      table.checkFilter (Filter.ofAny [Filter.ofAll
        [⟨Dictionary.ofList [("id", .string "abc")], [], []⟩]]) = .ok () :=
  ⟨_, _, rfl, rfl, rfl, rfl, rfl, rfl⟩

end Table

end DocQuery

/-
This file proves that fields accept what comes back of the values that they accept, once these have
been turned into JSON trees.

On the way an instant and a record id become their texts, so that another branch of the check
decides about them, which reads the text. It finds the same record id, and a point in time, under
conditions on the value alone: a year that four digits hold, and a table that reads back. Null is a
matter of the field and comes back as it is, but a double that is not finite comes back as null,
which a field need not accept. Lists are taken through item by item, and of an object nothing is
checked.
-/

import DocQuery.Proofs.JsonConversion
import DocQuery.Proofs.TimestampText
import DocQuery.Proofs.TypeMeaning

namespace DocQuery

/-- Whether a value that holds no others is understood when it comes back: a double is finite, an
instant has a year of four digits and a record id has a table that reads back. -/
def Value.IsPortable : Value → Prop
  | .float number => number.isFinite = true
  | .instant value => value.HasPlainYear
  | .record id => id.HasReadableTable
  | _ => True

/-! ### Elements -/

theorem Scalar.accepts_back (basic : Scalar) {value : Value}
    (portable : ∀ leaf ∈ value.leaves, leaf.IsPortable) (accepted : basic.accepts value = true) :
    basic.accepts value.throughJson = true := by
  cases value with
  | null => exact accepted
  | bool truth => exact accepted
  | int number =>
    rw [Value.throughJson_int]
    exact accepted
  | float number =>
    have finite : number.isFinite = true := portable _ List.mem_cons_self
    rw [(Value.throughJson_float_iff number).mpr finite]
    exact accepted
  | string text => exact accepted
  | instant instant =>
    have plain : instant.HasPlainYear := portable _ List.mem_cons_self
    cases basic with
    | datetime => exact Instant.isTimestamp_write plain
    | _ => cases accepted
  | record id => cases basic <;> cases accepted
  | list items => cases basic <;> cases accepted
  | object entries =>
    rw [Value.throughJson_object]
    cases basic with
    | object => rfl
    | _ => cases accepted

namespace FieldKind

/-- The text of a record id leads to the same table as the id. -/
theorem accepts_record_write (targets : List TableLink) {id : RecordId}
    (readable : id.HasReadableTable) :
    (FieldKind.record targets).accepts (.string id.write) =
      (FieldKind.record targets).accepts (.record id) := by
  rw [accepts, accepts, readable.read?_write]

theorem accepts_back (kind : FieldKind) {value : Value}
    (portable : ∀ leaf ∈ value.leaves, leaf.IsPortable) (accepted : kind.accepts value = true) :
    kind.accepts value.throughJson = true := by
  cases kind with
  | scalar basic => exact basic.accepts_back portable accepted
  | record targets =>
    cases value with
    | string text => exact accepted
    | record id =>
      have readable : id.HasReadableTable := portable _ List.mem_cons_self
      rw [← accepts_record_write targets readable] at accepted
      exact accepted
    | _ => cases accepted

end FieldKind

namespace Field

/-- What the kind of a field accepts is an element of the field. -/
theorem acceptsElement_of_accepts (field : Field) {value : Value}
    (accepted : field.kind.accepts value = true) : field.acceptsElement value = true := by
  cases value with
  | null =>
    rw [field.kind.accepts_null] at accepted
    cases accepted
  | _ => exact accepted

theorem acceptsElement_throughJson (field : Field) {value : Value}
    (portable : ∀ leaf ∈ value.leaves, leaf.IsPortable)
    (accepted : field.acceptsElement value = true) :
    field.acceptsElement value.throughJson = true := by
  by_cases null : value = .null
  · rw [null] at accepted ⊢
    exact accepted
  · have ofKind : field.kind.accepts value = true := by
      cases value with
      | null => exact absurd rfl null
      | _ => exact accepted
    exact field.acceptsElement_of_accepts (field.kind.accepts_back portable ofKind)

end Field

theorem Value.leaves_subset_of_mem {item : Value} {items : List Value} (member : item ∈ items) :
    item.leaves ⊆ leavesOf items := by
  induction items with
  | nil => cases member
  | cons first rest inductionHypothesis =>
    rw [leavesOf]
    rcases List.mem_cons.mp member with rfl | later
    · exact List.subset_append_left _ _
    · exact List.subset_append_of_subset_right _ (inductionHypothesis later)

namespace Field

/-! ### Fields -/

theorem accepts_portable (field : Field) {value : Value}
    (portable : ∀ leaf ∈ value.leaves, leaf.IsPortable) (accepted : field.accepts value = true) :
    field.accepts value.throughJson = true := by
  unfold accepts at accepted ⊢
  by_cases flexible : field.isFlexible = true
  · exact if_pos flexible
  · rw [if_neg flexible] at accepted ⊢
    by_cases array : field.isArray = true
    · rw [if_pos array] at accepted ⊢
      cases value with
      | list items =>
        rw [Value.throughJson_list]
        dsimp only at accepted ⊢
        rw [List.all_eq_true] at accepted
        rw [List.all_map, List.all_eq_true]
        intro item member
        exact field.acceptsElement_throughJson
          (fun leaf among => portable leaf (Value.leaves_subset_of_mem member among))
          (accepted item member)
      | _ => cases accepted
    · rw [if_neg array] at accepted ⊢
      exact field.acceptsElement_throughJson portable accepted

/-- Validation survives the way through JSON. If all doubles of a value are finite, all its instants
have years of four digits and all its record ids have tables that read back, at any depth, then a
field that accepts the value accepts what comes back of it. In particular a field that accepts a
record id or an instant accepts its text. -/
theorem accepts_throughJson :
    (∀ (field : Field) (value : Value), (∀ leaf ∈ value.leaves, leaf.IsPortable) →
      field.accepts value = true → field.accepts value.throughJson = true) ∧
    (∀ (field : Field) (id : RecordId), id.table ≠ "" ∧ ':' ∉ id.table.toList →
      field.accepts (.record id) = true → field.accepts (.string id.write) = true) ∧
    ∀ (field : Field) (instant : Instant),
      0 ≤ instant.date.year ∧ instant.date.year ≤ 9999 →
      field.accepts (.instant instant) = true → field.accepts (.string instant.write) = true := by
  refine ⟨fun field _ => field.accepts_portable, fun field id readable accepted => ?_,
    fun field instant plain accepted => ?_⟩
  · have portable : ∀ leaf ∈ (Value.record id).leaves, leaf.IsPortable :=
      List.forall_mem_singleton.mpr readable
    exact field.accepts_portable portable accepted
  · have portable : ∀ leaf ∈ (Value.instant instant).leaves, leaf.IsPortable :=
      List.forall_mem_singleton.mpr plain
    exact field.accepts_portable portable accepted

/-- The leap second at the end of June 2015. -/
def leapSecond : Instant :=
  ⟨1435708799, 1000000000⟩

/-- A list of null and two record ids, one of them with a key that looks like another id. -/
def sharedRecords : Value :=
  .list [.null, .record ⟨"User", .text "Post:1"⟩, .record ⟨"Post", .number (-1)⟩]

theorem accepts_throughJson_shared :
    (∀ leaf ∈ sharedRecords.leaves, leaf.IsPortable) ∧
    Schema.sharedField.accepts sharedRecords = true ∧
    Schema.sharedField.accepts
      (.list [.null, .string "User:⟨Post:1⟩", .string "Post:-1"]) = true ∧
    (0 ≤ leapSecond.date.year ∧ leapSecond.date.year ≤ 9999) ∧
    (Field.ofKind (.scalar .datetime)).accepts (.instant leapSecond) = true ∧
    (Field.ofKind (.scalar .datetime)).accepts (.string "2015-06-30T23:59:60+00:00") = true := by
  have portable : ∀ leaf ∈ sharedRecords.leaves, leaf.IsPortable := by
    simp [sharedRecords, Value.leaves, Value.leavesOf, Value.IsPortable, RecordId.HasReadableTable]
  have accepted : Schema.sharedField.accepts sharedRecords = true := by decide
  have year : 0 ≤ leapSecond.date.year ∧ leapSecond.date.year ≤ 9999 := by decide
  obtain ⟨through, -, ofInstant⟩ := accepts_throughJson
  refine ⟨portable, accepted, through Schema.sharedField sharedRecords portable accepted, year, rfl,
    ofInstant (Field.ofKind (.scalar .datetime)) leapSecond year rfl⟩

end Field

end DocQuery

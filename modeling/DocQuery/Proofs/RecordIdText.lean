/-
This file proves that the text of a record id reads back as the id, and says exactly when.

A key reads back whatever it is. The three forms of a key begin differently: one with an opening
bracket, one with a digit or a minus sign, and one with a letter or an underscore, which no
number begins with. Between brackets every backslash and every closing bracket has a backslash in
front, so dropping these backslashes once restores the text, also at its end. A table reads back if
there is one and no colon in it, since the first colon of the text is taken for the one behind
the table.
-/

import DocQuery.Proofs.NameReading

namespace DocQuery

namespace RecordKey

/-! ### Keys between brackets -/

theorem unescape_cons {character : Char} (plain : character ≠ '\\') (rest : List Char) :
    unescape (character :: rest) = character :: unescape rest := by
  rw [unescape]
  · exact fun same => absurd same plain
  · exact fun _ _ same => absurd same plain

theorem unescape_escape (text : List Char) : unescape (escape text) = text := by
  induction text with
  | nil => rfl
  | cons character rest inductionHypothesis =>
    by_cases special : character = '\\' ∨ character = '⟩'
    · rw [escape, if_pos special, unescape, inductionHypothesis]
    · have plain : character ≠ '\\' := fun same => special (Or.inl same)
      rw [escape, if_neg special, unescape_cons plain, inductionHypothesis]

theorem bracketed?_brackets (inner : List Char) :
    bracketed? ('⟨' :: inner ++ ['⟩']) = some inner := by
  rw [List.cons_append, bracketed?, if_pos List.getLast?_concat, List.dropLast_concat]

/-- What does not begin with an opening bracket is not in brackets. -/
theorem bracketed?_cons {first : Char} (other : first ≠ '⟨') (rest : List Char) :
    bracketed? (first :: rest) = none := by
  rw [bracketed?]
  exact fun _ same => absurd (List.cons.inj same).1 other

/-! ### Keys without brackets -/

theorem HasNoBrackets.bracketed?_eq_none {key : RecordKey} (bare : key.HasNoBrackets) :
    bracketed? key.characters = none := by
  obtain ⟨first, rest, shape, stands⟩ := bare.exists_cons
  rw [shape]
  refine bracketed?_cons ?_ rest
  rintro rfl
  exact absurd stands (by decide)

/-- What begins like a name is not a number, since it has neither a sign nor a digit in front. -/
theorem readInt64?_cons {first : Char} (starts : startsBare first = true) (rest : List Char) :
    Text.readInt64? (first :: rest) = none := by
  have noDigits : Text.readDigits? (first :: rest) = none := by
    have noDigit : first.isDigit = false := by
      by_contra digit
      rw [Bool.not_eq_false] at digit
      rw [startsBare_eq_false_of_isDigit digit] at starts
      cases starts
    rw [Text.readDigits?, List.all_cons, noDigit]
    exact if_neg fun digits => absurd digits.2 Bool.false_ne_true
  have noNumber : Text.readInt? (first :: rest) = none := by
    rw [Text.readInt?, noDigits]
    · rfl
    · rintro _ same
      rw [(List.cons.inj same).1] at starts
      exact absurd starts (by decide)
    · rintro _ same
      rw [(List.cons.inj same).1] at starts
      exact absurd starts (by decide)
  rw [Text.readInt64?, noNumber]

/-- Every key reads back. -/
theorem read_characters (key : RecordKey) : read key.characters = key := by
  cases key with
  | number value =>
    have bare : (RecordKey.number value).HasNoBrackets := trivial
    have number : Text.readInt64? (RecordKey.number value).characters = some value :=
      Text.readInt64?_writeInt64 value
    rw [read, bare.bracketed?_eq_none, number]
  | text value =>
    by_cases plain : isBare value.toList = true
    · have bare : (RecordKey.text value).HasNoBrackets := plain
      obtain ⟨first, rest, shape, starts⟩ := PlainName.exists_cons plain
      have noNumber : Text.readInt64? value.toList = none := by
        rw [shape]
        exact readInt64?_cons starts rest
      rw [read, bare.bracketed?_eq_none, characters_bare plain, noNumber]
      exact congrArg RecordKey.text String.ofList_toList
    · rw [characters, if_neg plain, read, bracketed?_brackets]
      dsimp only
      rw [unescape_escape, String.ofList_toList]

theorem characters_ne_nil (key : RecordKey) : key.characters ≠ [] := by
  cases key with
  | number value =>
    obtain ⟨-, first, rest, shape, -⟩ := characters_number value
    rw [shape]
    exact List.cons_ne_nil first rest
  | text value =>
    by_cases plain : isBare value.toList = true
    · obtain ⟨first, rest, shape, -⟩ := PlainName.exists_cons plain
      rw [characters_bare plain, shape]
      exact List.cons_ne_nil first rest
    · rw [characters, if_neg plain]
      exact List.cons_ne_nil '⟨' _

end RecordKey

/-! ### Ids -/

namespace RecordId

theorem splitAtColon?_append {table : List Char} (noColon : ':' ∉ table) (key : List Char) :
    splitAtColon? (table ++ ':' :: key) = some (table, key) := by
  induction table with
  | nil => rfl
  | cons character rest inductionHypothesis =>
    rw [List.mem_cons, not_or] at noColon
    rw [List.cons_append, splitAtColon?, inductionHypothesis noColon.2]
    · rfl
    · exact fun same => noColon.1 same.symm

/-- What stands before the first colon has none. -/
theorem not_mem_of_splitAtColon? {text table key : List Char}
    (split : splitAtColon? text = some (table, key)) : ':' ∉ table := by
  induction text generalizing table with
  | nil => cases split
  | cons character rest inductionHypothesis =>
    by_cases colon : character = ':'
    · subst colon
      cases split
      exact List.not_mem_nil
    · rw [splitAtColon?] at split
      · obtain ⟨⟨front, behind⟩, later, same⟩ := Option.map_eq_some_iff.mp split
        cases same
        rw [List.mem_cons, not_or]
        exact ⟨fun same => colon same.symm, inductionHypothesis later⟩
      · exact colon

/-- A table that reads back: there is one, and no colon in it. -/
def HasReadableTable (id : RecordId) : Prop :=
  id.table ≠ "" ∧ ':' ∉ id.table.toList

/-- Every id that a text denotes has such a table. -/
theorem hasReadableTable_of_read? {text : String} {id : RecordId}
    (read : read? text = some id) : id.HasReadableTable := by
  rw [read?] at read
  split at read
  · cases read
  · rename_i table key split
    by_cases missing : table = [] ∨ key = []
    · rw [if_pos missing] at read
      cases read
    · rw [if_neg missing] at read
      cases read
      refine ⟨fun empty => missing (Or.inl ?_), ?_⟩
      · exact String.ofList_eq_empty_iff.mp empty
      · rw [String.toList_ofList]
        exact not_mem_of_splitAtColon? split

theorem toList_write (id : RecordId) :
    id.write.toList = id.table.toList ++ ':' :: id.key.characters := by
  have colon : ":".toList = [':'] := rfl
  rw [write, RecordKey.write, String.toList_append, String.toList_append, colon,
    String.toList_ofList, List.append_assoc, List.singleton_append]

/-- An id with such a table reads back. -/
theorem HasReadableTable.read?_write {id : RecordId} (readable : id.HasReadableTable) :
    read? id.write = some id := by
  have present : ¬ (id.table.toList = [] ∨ id.key.characters = []) := by
    rintro (empty | empty)
    · exact readable.1 (String.toList_eq_nil_iff.mp empty)
    · exact id.key.characters_ne_nil empty
  rw [read?, toList_write, splitAtColon?_append readable.2]
  dsimp only
  rw [if_neg present, RecordKey.read_characters, String.ofList_toList]

/-- An id reads back from its text if and only if it has a table and no colon in its name, whatever
its key is. So the text of an id that was read is read as the same id, and two ids with such tables
never share a text. -/
theorem read?_write_exact :
    (∀ id : RecordId, read? id.write = some id ↔ id.table ≠ "" ∧ ':' ∉ id.table.toList) ∧
    (∀ (text : String) (id : RecordId), read? text = some id → read? id.write = read? text) ∧
    ∀ first second : RecordId, first.table ≠ "" ∧ ':' ∉ first.table.toList →
      second.table ≠ "" ∧ ':' ∉ second.table.toList → first ≠ second →
      first.write ≠ second.write := by
  refine ⟨fun id => ⟨hasReadableTable_of_read?, HasReadableTable.read?_write⟩, ?_, ?_⟩
  · intro text id read
    rw [read]
    exact (hasReadableTable_of_read? read).read?_write
  · intro first second firstReadable secondReadable different same
    have firstRead := HasReadableTable.read?_write firstReadable
    rw [same, HasReadableTable.read?_write secondReadable, Option.some_inj] at firstRead
    exact different firstRead.symm

/-- A key of digits is not the number, a key that looks like the end of a key reads back, and so
does what was read from a text that is not the usual one. -/
theorem read?_write_unusual :
    (⟨"User", .text "7"⟩ : RecordId).write ≠ (⟨"User", .number 7⟩ : RecordId).write ∧
    read? (⟨"User", .text "⟩:\\"⟩ : RecordId).write = some ⟨"User", .text "⟩:\\"⟩ ∧
    read? (⟨"User", .number 7⟩ : RecordId).write = read? "User:+07" := by
  obtain ⟨exactly, again, apart⟩ := read?_write_exact
  have read : read? "User:+07" = some ⟨"User", .number 7⟩ := by decide
  exact ⟨apart _ _ (by decide) (by decide) (by decide), (exactly _).mpr (by decide),
    again _ _ read⟩

end RecordId

end DocQuery

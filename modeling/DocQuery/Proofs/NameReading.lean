/-
This file proves that names and keys of records can be read where they stand in a statement.

A name ends in front of any character that cannot continue it, whatever keyword it may spell. A
key in brackets ends at the first closing bracket that has no backslash of its own, so any text
can stand there. Any other key ends like a name, and a number is not taken for a name, since it
begins with a digit or a minus sign.
-/

import DocQuery.Proofs.Formula
import DocQuery.Proofs.UniqueReading

namespace DocQuery

/-! ### Names and keys -/

/-- Whether a name can stand in a statement as it is. -/
def PlainName (name : String) : Prop :=
  RecordKey.isBare name.toList = true

instance (name : String) : Decidable (PlainName name) :=
  inferInstanceAs (Decidable (RecordKey.isBare name.toList = true))

theorem PlainName.all_continuesBare {name : String} (plain : PlainName name) :
    name.toList.all RecordKey.continuesBare = true :=
  Identifier.all_continuesBare ⟨name, plain⟩

theorem PlainName.exists_cons {name : String} (plain : PlainName name) :
    ∃ first rest, name.toList = first :: rest ∧ RecordKey.startsBare first = true := by
  rw [PlainName] at plain
  cases shape : name.toList with
  | nil =>
    rw [shape] at plain
    cases plain
  | cons first rest =>
    rw [shape, RecordKey.isBare, Bool.and_eq_true] at plain
    exact ⟨first, rest, rfl, plain.1⟩

variable {marks : List String}

theorem Tells.name (ends : EndsRun RecordKey.continuesBare marks) :
    Tells PlainName id id marks :=
  (Tells.run ends).comap id fun _ plain => plain.all_continuesBare

namespace RecordKey

/-- Whether a character stands in keys that have no brackets. -/
def standsBare (character : Char) : Bool :=
  continuesBare character || character == '-'

/-- Whether a key is written without brackets. -/
def HasNoBrackets : RecordKey → Prop
  | .number _ => True
  | .text value => isBare value.toList = true

theorem startsBare_eq_false_of_isDigit {character : Char} (digit : character.isDigit = true) :
    startsBare character = false := by
  have different : character ≠ '_' := by
    rintro rfl
    revert digit
    decide
  -- The letters come behind the digits.
  have small : character.val ≤ '9'.val :=
    of_decide_eq_true ((Bool.and_eq_true _ _).mp digit).2
  have upper : character.isUpper = false :=
    decide_eq_false fun between => absurd (UInt32.le_trans between.1 small) (by decide)
  have lower : character.isLower = false :=
    congrArg (and · _) (decide_eq_false fun above =>
      absurd (UInt32.le_trans above small) (by decide))
  have letter : character.isAlpha = false := congrArg₂ or upper lower
  rw [startsBare, letter, Bool.false_or]
  exact beq_false_of_ne different

theorem standsBare_of_isDigit {character : Char} (digit : character.isDigit = true) :
    standsBare character = true := by
  simp [standsBare, continuesBare, Char.isAlphanum, digit]

theorem all_standsBare_repr (number : Nat) : (Nat.repr number).toList.all standsBare = true := by
  rw [List.all_eq_true]
  intro digit member
  exact standsBare_of_isDigit (List.all_eq_true.mp (Text.all_isDigit_repr number) digit member)

/-- A number stands bare, but does not begin like a name. -/
theorem characters_number (value : Int64) :
    (RecordKey.number value).characters.all standsBare = true ∧
      ∃ first rest, (RecordKey.number value).characters = first :: rest ∧
        startsBare first = false := by
  have digits := all_standsBare_repr value.toInt.natAbs
  rw [characters, Text.writeInt64, Text.writeInt]
  split
  · have minus : standsBare '-' = true ∧ startsBare '-' = false := by decide
    have shape : ("-" ++ Nat.repr value.toInt.natAbs).toList =
        '-' :: (Nat.repr value.toInt.natAbs).toList := String.toList_append
    rw [shape, List.all_cons, minus.1, digits]
    exact ⟨rfl, '-', _, rfl, minus.2⟩
  · refine ⟨digits, ?_⟩
    cases shape : (Nat.repr value.toInt.natAbs).toList with
    | nil =>
      have read := Text.readDigits?_repr value.toInt.natAbs
      rw [shape] at read
      cases read
    | cons first rest =>
      exact ⟨first, rest, rfl,
        startsBare_eq_false_of_isDigit (Text.repr_toList_head_isDigit _ shape)⟩

theorem characters_bare {value : String} (bare : isBare value.toList = true) :
    (RecordKey.text value).characters = value.toList := by
  rw [characters, if_pos bare]

theorem HasNoBrackets.all_standsBare {key : RecordKey} (bare : HasNoBrackets key) :
    key.characters.all standsBare = true := by
  cases key with
  | number value => exact (characters_number value).1
  | text value =>
    have continues : value.toList.all continuesBare = true := PlainName.all_continuesBare bare
    rw [characters_bare bare, List.all_eq_true]
    intro character member
    rw [standsBare, List.all_eq_true.mp continues character member, Bool.true_or]

theorem HasNoBrackets.exists_cons {key : RecordKey} (bare : HasNoBrackets key) :
    ∃ first rest, key.characters = first :: rest ∧ standsBare first = true := by
  have all := bare.all_standsBare
  cases shape : key.characters with
  | nil =>
    cases key with
    | number value =>
      obtain ⟨-, first, rest, other, -⟩ := characters_number value
      rw [shape] at other
      cases other
    | text value =>
      obtain ⟨first, rest, other, -⟩ := PlainName.exists_cons bare
      rw [← characters_bare bare, shape] at other
      cases other
  | cons first rest =>
    rw [shape, List.all_cons, Bool.and_eq_true] at all
    exact ⟨first, rest, rfl, all.1⟩

/-- Without brackets, a number is not written like a name. -/
theorem HasNoBrackets.eq_of_characters_eq {first second : RecordKey}
    (firstBare : HasNoBrackets first) (secondBare : HasNoBrackets second)
    (same : first.characters = second.characters) : first = second := by
  have differ (value : Int64) {name : String} (bare : isBare name.toList = true) :
      (RecordKey.number value).characters ≠ (RecordKey.text name).characters := by
    obtain ⟨-, first, rest, shape, noName⟩ := characters_number value
    obtain ⟨start, others, nameShape, isName⟩ := PlainName.exists_cons bare
    rw [characters_bare bare, shape, nameShape]
    rintro equal
    rw [(List.cons.inj equal).1, isName] at noName
    cases noName
  cases first with
  | number value =>
    cases second with
    | number other =>
      have read := Text.readInt64?_writeInt64 value
      rw [show (Text.writeInt64 value).toList = (Text.writeInt64 other).toList from same,
        Text.readInt64?_writeInt64, Option.some_inj] at read
      rw [read]
    | text name => exact absurd same (differ value secondBare)
  | text name =>
    cases second with
    | number value => exact absurd same.symm (differ value firstBare)
    | text other =>
      rw [characters_bare firstBare, characters_bare secondBare] at same
      rw [String.toList_inj.mp same]

/-- An escaped character never begins like a closing bracket. -/
theorem escape_cons_ne (character : Char) (left rest other : List Char) :
    escape (character :: left) ++ rest ≠ '⟩' :: other := by
  rw [escape]
  split
  · rintro same
    exact absurd (List.cons.inj same).1 (by decide)
  · rename_i plain
    rintro same
    exact plain (Or.inr (List.cons.inj same).1)

/-- A key that is written without brackets, or the text that is written between them. -/
def form : RecordKey → RecordKey ⊕ String
  | .number value => .inl (.number value)
  | .text value => if isBare value.toList = true then .inl (.text value) else .inr value

theorem form_text_bare {value : String} (bare : isBare value.toList = true) :
    form (.text value) = .inl (.text value) := if_pos bare

theorem form_text_bracketed {value : String} (bracketed : isBare value.toList ≠ true) :
    form (.text value) = .inr value := if_neg bracketed

theorem form_injective : Function.Injective form := by
  have read : Function.LeftInverse (Sum.elim id .text) form := by
    rintro (value | value)
    · rfl
    · by_cases bare : isBare value.toList = true
      · rw [form_text_bare bare, Sum.elim_inl, id]
      · rw [form_text_bracketed bare, Sum.elim_inr]
  exact read.injective

/-- Behind escaped characters, a closing bracket shows where they end. -/
theorem escape_append_inj {left right rest other : List Char}
    (same : escape left ++ '⟩' :: rest = escape right ++ '⟩' :: other) :
    left = right ∧ rest = other := by
  induction left generalizing right with
  | nil =>
    cases right with
    | nil => exact ⟨rfl, (List.cons.inj same).2⟩
    | cons character right => exact absurd same.symm (escape_cons_ne character right _ rest)
  | cons character left inductionHypothesis =>
    cases right with
    | nil => exact absurd same (escape_cons_ne character left _ other)
    | cons next right =>
      -- An escaped character begins with a backslash, and a plain one never is a backslash.
      have equal : character = next ∧
          escape left ++ '⟩' :: rest = escape right ++ '⟩' :: other := by
        by_cases special : character = '\\' ∨ character = '⟩'
        · by_cases nextSpecial : next = '\\' ∨ next = '⟩'
          · rw [escape, if_pos special, escape, if_pos nextSpecial] at same
            exact List.cons.inj (List.cons.inj same).2
          · rw [escape, if_pos special, escape, if_neg nextSpecial] at same
            exact absurd (Or.inl (List.cons.inj same).1.symm) nextSpecial
        · by_cases nextSpecial : next = '\\' ∨ next = '⟩'
          · rw [escape, if_neg special, escape, if_pos nextSpecial] at same
            exact absurd (Or.inl (List.cons.inj same).1) special
          · rw [escape, if_neg special, escape, if_neg nextSpecial] at same
            exact List.cons.inj same
      obtain ⟨rfl, later⟩ := equal
      obtain ⟨rfl, rests⟩ := inductionHypothesis later
      exact ⟨rfl, rests⟩

end RecordKey

namespace Tells

/-- A text in brackets tells itself, whatever follows it. -/
theorem bracketed (marks : List String) :
    Tells (fun _ => True)
      (fun value : String => String.ofList ('⟨' :: RecordKey.escape value.toList ++ ['⟩'])) id
      marks := by
  intro first second _ _ rest other _ _ same
  have characters := congrArg String.toList same
  simp only [String.toList_append, String.toList_ofList, List.cons_append, List.append_assoc,
    List.nil_append, List.cons.injEq, true_and] at characters
  obtain ⟨values, rests⟩ := RecordKey.escape_append_inj characters
  exact ⟨String.toList_inj.mp values, String.toList_inj.mp rests⟩

/-- A key tells itself in front of what cannot stand in a key without brackets. -/
theorem key (ends : EndsRun RecordKey.standsBare marks) :
    Tells (fun _ => True) RecordKey.write id marks := by
  have bare : Tells RecordKey.HasNoBrackets RecordKey.write id marks := by
    refine (run ends).transfer RecordKey.write ?_ (fun _ _ => rfl) ?_
    · intro key noBrackets
      rw [RecordKey.write, String.toList_ofList]
      exact noBrackets.all_standsBare
    · intro first second firstBare secondBare same
      exact firstBare.eq_of_characters_eq secondBare (String.ofList_inj.mp same)
  have differ : ∀ (key : RecordKey) (value : String), key.HasNoBrackets → True →
      ∀ rest other, key.write ++ rest ≠
        String.ofList ('⟨' :: RecordKey.escape value.toList ++ ['⟩']) ++ other := by
    rintro key value noBrackets - rest other same
    obtain ⟨first, later, shape, stands⟩ := noBrackets.exists_cons
    have characters := congrArg String.toList same
    rw [String.toList_append, RecordKey.write, String.toList_ofList, shape, String.toList_append,
      String.toList_ofList] at characters
    rw [(List.cons.inj characters).1] at stands
    exact absurd stands (by decide)
  refine (bare.either (bracketed marks) differ).transfer RecordKey.form ?_ ?_ ?_
  · rintro (value | value) -
    · exact trivial
    · by_cases plain : RecordKey.isBare value.toList = true
      · rw [RecordKey.form_text_bare plain]
        exact plain
      · rw [RecordKey.form_text_bracketed plain]
        exact trivial
  · rintro (value | value) -
    · rfl
    · by_cases plain : RecordKey.isBare value.toList = true
      · rw [RecordKey.form_text_bare plain, Sum.elim_inl]
      · rw [RecordKey.form_text_bracketed plain, Sum.elim_inr, RecordKey.write,
          RecordKey.characters, if_neg plain]
  · intro first second _ _ same
    rw [Sum.map_id_id] at same
    exact RecordKey.form_injective same

end Tells

end DocQuery

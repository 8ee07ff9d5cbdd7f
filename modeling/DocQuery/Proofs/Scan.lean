/-
This file holds a scan for the ends of statements, and the texts that it passes over.

The scan goes from left to right. It is outside at the start, a quote takes it into a string and an
opening bracket into the key of a record, and it is outside again behind the character that
closes what it is in. In there a backslash takes the next character along. Only a terminator that is
met outside ends a statement.

What is proved about a text says where the scan is behind it, given where it was in front of it, and
that it has met no end in between. Such facts compose, so a text is balanced, which means that the
scan passes over it from outside to outside, if its parts are. The two ways of escaping are
each one invariant: inside a string or a key, what stands for a character of the text leaves the
scan where it was.
-/

import DocQuery.Proofs.NameReading
import DocQuery.Statement.Literal

namespace DocQuery

/-! ### The scan -/

/-- What can hide a terminator: a string, or the key of a record in brackets. -/
inductive Enclosure where
  | string
  | key
  deriving DecidableEq

namespace Enclosure

/-- The character that an enclosure begins with. -/
def opening : Enclosure → Char
  | .string => '"'
  | .key => '⟨'

/-- The character that an enclosure ends with. -/
def closing : Enclosure → Char
  | .string => '"'
  | .key => '⟩'

end Enclosure

/-- Where a scan is. -/
inductive Place where
  | outside
  | inside (enclosure : Enclosure)
  /-- In an enclosure and behind a backslash. -/
  | escaped (enclosure : Enclosure)
  deriving DecidableEq

namespace Place

/-- Where the scan is behind one more character. -/
def next : Place → Char → Place
  | .outside, character =>
    if character = Enclosure.string.opening then .inside .string
    else if character = Enclosure.key.opening then .inside .key
    else .outside
  | .inside enclosure, character =>
    if character = '\\' then .escaped enclosure
    else if character = enclosure.closing then .outside
    else .inside enclosure
  | .escaped enclosure, _ => .inside enclosure

/-- Where the scan is behind a text. -/
def after (place : Place) (text : List Char) : Place :=
  text.foldl next place

/-- What follows each terminator that the scan meets outside, in order. -/
def behindEnds : Place → List Char → List (List Char)
  | _, [] => []
  | place, character :: rest =>
    if place = .outside ∧ character = ';' then rest :: behindEnds .outside rest
    else (place.next character).behindEnds rest

end Place

/-- Whether a text is a single statement: the scan meets one end, with nothing behind it, and no
string or key is left open. -/
def IsSingleStatement (text : String) : Prop :=
  Place.outside.after text.toList = .outside ∧ Place.outside.behindEnds text.toList = [[]]

instance (text : String) : Decidable (IsSingleStatement text) :=
  inferInstanceAs (Decidable
    (Place.outside.after text.toList = .outside ∧ Place.outside.behindEnds text.toList = [[]]))

/-! ### What is passed over -/

/-- From a place to another, the scan passes over a text without meeting an end. -/
structure Passes (place : Place) (text : List Char) (last : Place) : Prop where
  after_eq : place.after text = last
  behindEnds_eq : ∀ rest, place.behindEnds (text ++ rest) = last.behindEnds rest

namespace Passes

variable {place middle last : Place} {text left right : List Char}

theorem nil (place : Place) : Passes place [] place := ⟨rfl, fun _ => rfl⟩

theorem append (first : Passes place left middle) (second : Passes middle right last) :
    Passes place (left ++ right) last where
  after_eq := by
    rw [Place.after, List.foldl_append]
    exact (congrArg (List.foldl Place.next · right) first.after_eq).trans second.after_eq
  behindEnds_eq rest := by
    rw [List.append_assoc, first.behindEnds_eq, second.behindEnds_eq]

/-- One character is passed over unless it is an end. -/
theorem character {character : Char} (noEnd : ¬ (place = .outside ∧ character = ';')) :
    Passes place [character] (place.next character) where
  after_eq := rfl
  behindEnds_eq rest := by
    rw [List.singleton_append, Place.behindEnds, if_neg noEnd]

/-- Inside an enclosure every character is passed over. -/
theorem character_inside (enclosure : Enclosure) (character : Char) :
    Passes (.inside enclosure) [character] ((Place.inside enclosure).next character) :=
  Passes.character fun ends => nomatch ends.1

/-- A backslash takes the next character along. -/
theorem escaped (enclosure : Enclosure) (character : Char) :
    Passes (.inside enclosure) ['\\', character] (.inside enclosure) :=
  (character_inside enclosure '\\').append (Passes.character fun ends => nomatch ends.1)

/-- A character that neither escapes nor closes leaves the scan inside. -/
theorem plain {enclosure : Enclosure} {character : Char} (noEscape : character ≠ '\\')
    (noClosing : character ≠ enclosure.closing) :
    Passes (.inside enclosure) [character] (.inside enclosure) := by
  have next := character_inside enclosure character
  rwa [Place.next, if_neg noEscape, if_neg noClosing] at next

/-- An enclosure is passed over if what it holds keeps the scan inside. -/
theorem enclosed {enclosure : Enclosure}
    (holds : Passes (.inside enclosure) text (.inside enclosure)) :
    Passes .outside (enclosure.opening :: text ++ [enclosure.closing]) .outside := by
  have opens : Passes .outside [enclosure.opening] (.inside enclosure) := by
    cases enclosure with
    | string => exact Passes.character (by decide)
    | key => exact Passes.character (by decide)
  have closes : Passes (.inside enclosure) [enclosure.closing] .outside := by
    cases enclosure with
    | string => exact character_inside .string '"'
    | key => exact character_inside .key '⟩'
  exact (opens.append holds).append closes

/-- Whatever a string says, its literal keeps the scan inside up to the closing quote. -/
theorem escapeQuoted (text : List Char) :
    Passes (.inside .string) (text.flatMap Text.escapeQuoted) (.inside .string) := by
  induction text with
  | nil => exact nil _
  | cons character rest inductionHypothesis =>
    have first : Passes (.inside .string) (Text.escapeQuoted character) (.inside .string) := by
      unfold Text.escapeQuoted
      split
      · exact escaped .string _
      · rename_i noQuote
        split
        · exact escaped .string _
        · rename_i noEscape
          split
          · exact escaped .string _
          · split
            · exact escaped .string _
            · split
              · exact escaped .string _
              · exact plain noEscape noQuote
    exact first.append inductionHypothesis

/-- Whatever a key says, its escaped text keeps the scan inside up to the closing bracket. -/
theorem escape (text : List Char) :
    Passes (.inside .key) (RecordKey.escape text) (.inside .key) := by
  induction text with
  | nil => exact nil _
  | cons character rest inductionHypothesis =>
    rw [RecordKey.escape]
    split
    · exact (escaped .key character).append inductionHypothesis
    · rename_i special
      have noEscape : character ≠ '\\' := fun same => special (Or.inl same)
      have noClosing : character ≠ Enclosure.key.closing := fun same => special (Or.inr same)
      exact (plain noEscape noClosing).append inductionHypothesis

end Passes

/-! ### Balanced texts -/

/-- From outside to outside, the scan passes over the text. -/
def Balanced (text : String) : Prop :=
  Passes .outside text.toList .outside

/-- Whether a character neither ends a statement nor opens a string or a key. -/
def isHarmless (character : Char) : Bool :=
  character != ';' && character != Enclosure.string.opening && character != Enclosure.key.opening

/-- Whether all characters of a text are harmless outside. -/
def Harmless (text : String) : Prop :=
  text.toList.all isHarmless = true

instance (text : String) : Decidable (Harmless text) :=
  inferInstanceAs (Decidable (text.toList.all isHarmless = true))

theorem isHarmless_of_standsBare {character : Char}
    (stands : RecordKey.standsBare character = true) : isHarmless character = true := by
  have different (other : Char) (apart : RecordKey.standsBare other = false) :
      character ≠ other := by
    rintro rfl
    rw [stands] at apart
    cases apart
  simp [isHarmless, different ';' (by decide), different Enclosure.string.opening (by decide),
    different Enclosure.key.opening (by decide)]

theorem isHarmless_of_isDigit {character : Char} (digit : character.isDigit = true) :
    isHarmless character = true :=
  isHarmless_of_standsBare (RecordKey.standsBare_of_isDigit digit)

theorem Passes.harmless {text : List Char} (harmless : text.all isHarmless = true) :
    Passes .outside text .outside := by
  induction text with
  | nil => exact nil _
  | cons character rest inductionHypothesis =>
    rw [List.all_cons, Bool.and_eq_true] at harmless
    obtain ⟨⟨noEnd, noString⟩, noKey⟩ : (character ≠ ';' ∧
        character ≠ Enclosure.string.opening) ∧ character ≠ Enclosure.key.opening := by
      simpa [isHarmless] using harmless.1
    have first : Passes .outside [character] (Place.outside.next character) :=
      Passes.character fun ends => noEnd ends.2
    rw [Place.next, if_neg noString, if_neg noKey] at first
    exact first.append (inductionHypothesis harmless.2)

theorem Harmless.balanced {text : String} (harmless : Harmless text) : Balanced text :=
  Passes.harmless harmless

/-- A balanced text in front of a terminator is a single statement. -/
theorem Balanced.isSingleStatement {text : String} (balanced : Balanced text) :
    IsSingleStatement (text ++ ";") := by
  have terminator : ";".toList = [';'] := rfl
  have scanned : Place.outside.after (text.toList ++ [';']) = .outside := by
    rw [Place.after, List.foldl_append]
    exact congrArg (List.foldl Place.next · [';']) balanced.after_eq
  rw [IsSingleStatement, String.toList_append, terminator, balanced.behindEnds_eq]
  exact ⟨scanned, rfl⟩

namespace Balanced

variable {left right text opening closing separator : String} {texts : List String}

theorem empty : Balanced "" := Passes.nil _

theorem append (first : Balanced left) (second : Balanced right) : Balanced (left ++ right) := by
  rw [Balanced, String.toList_append]
  exact Passes.append first second

theorem behind (harmless : Harmless opening) (balanced : Balanced text) :
    Balanced (opening ++ text) :=
  harmless.balanced.append balanced

theorem before (balanced : Balanced text) (harmless : Harmless closing) :
    Balanced (text ++ closing) :=
  balanced.append harmless.balanced

theorem between (front : Harmless opening) (balanced : Balanced text) (back : Harmless closing) :
    Balanced (opening ++ text ++ closing) :=
  (balanced.behind front).before back

theorem intercalate (harmless : Harmless separator) (each : ∀ text ∈ texts, Balanced text) :
    Balanced (String.intercalate separator texts) := by
  induction texts with
  | nil => exact empty
  | cons first others inductionHypothesis =>
    rw [List.forall_mem_cons] at each
    cases others with
    | nil =>
      rw [String.intercalate_singleton]
      exact each.1
    | cons second rest =>
      rw [String.intercalate_cons_cons]
      exact (each.1.before harmless).append (inductionHypothesis each.2)

/-- What stands in keys without brackets is balanced, names and numbers among it. -/
theorem standsBare {text : String} (stands : text.toList.all RecordKey.standsBare = true) :
    Balanced text :=
  Harmless.balanced (List.all_eq_true.mpr fun character member =>
    isHarmless_of_standsBare (List.all_eq_true.mp stands character member))

theorem name {name : String} (plain : PlainName name) : Balanced name := by
  have bare : (RecordKey.text name).HasNoBrackets := plain
  have stands := bare.all_standsBare
  rw [RecordKey.characters_bare plain] at stands
  exact standsBare stands

theorem number (value : Int64) : Balanced (Text.writeInt64 value) :=
  standsBare (RecordKey.characters_number value).1

theorem quoted (text : String) : Balanced (Text.quoted text) := by
  rw [Balanced, Text.quoted, String.toList_ofList]
  exact Passes.enclosed (Passes.escapeQuoted text.toList)

/-- Every key is balanced, whatever it says. -/
theorem key (key : RecordKey) : Balanced key.write := by
  by_cases bare : key.HasNoBrackets
  · refine standsBare ?_
    rw [RecordKey.write, String.toList_ofList]
    exact bare.all_standsBare
  · cases key with
    | number value => exact absurd trivial bare
    | text value =>
      rw [Balanced, RecordKey.write, String.toList_ofList, RecordKey.characters,
        if_neg (by exact bare)]
      exact Passes.enclosed (Passes.escape value.toList)

theorem recordId {id : RecordId} (plain : PlainName id.table) : Balanced id.write :=
  ((name plain).before (by decide)).append (key id.key)

end Balanced

/-! ### Literals -/

namespace Double

theorem toDigits_all_isHarmless (number : Nat) :
    (Nat.toDigits 10 number).all isHarmless = true :=
  List.all_eq_true.mpr fun _ member => isHarmless_of_isDigit
    (Nat.isDigit_of_mem_toDigits (by decide) (by decide) member)

/-- Digits with a point are harmless. -/
theorem layoutPlain_all_isHarmless {digits : List Char} (inside : digits.all isHarmless = true)
    (exponent : Int) : (layoutPlain digits exponent).all isHarmless = true := by
  have marks : isHarmless '0' = true ∧ isHarmless '.' = true := by decide
  have zeros (count : Nat) : (List.replicate count '0').all isHarmless = true := by
    simp [marks.1]
  have front (count : Nat) : (digits.take count).all isHarmless = true :=
    List.all_eq_true.mpr fun character member =>
      List.all_eq_true.mp inside character (List.mem_of_mem_take member)
  have back (count : Nat) : (digits.drop count).all isHarmless = true :=
    List.all_eq_true.mpr fun character member =>
      List.all_eq_true.mp inside character (List.mem_of_mem_drop member)
  simp only [layoutPlain]
  split
  · simp only [List.all_append, inside, zeros, List.all_cons, marks, List.all_nil, Bool.and_true]
  · split
    · simp only [List.all_append, front, List.all_cons, marks, back, Bool.and_true]
    · simp only [List.cons_append, List.all_cons, marks, List.all_append, zeros, inside,
        Bool.and_true]

/-- Digits with a point and an exponent are harmless. -/
theorem layoutScientific_all_isHarmless {digits : List Char}
    (inside : digits.all isHarmless = true) (plusSign : Bool) (exponent : Int) :
    (layoutScientific plusSign digits exponent).all isHarmless = true := by
  have marks : isHarmless '.' = true ∧ isHarmless 'e' = true := by decide
  have sign : (if exponent < 0 then ['-'] else if plusSign then ['+'] else []).all isHarmless =
      true := by
    split
    · decide
    · split <;> decide
  simp only [layoutScientific, List.all_append, List.all_cons, marks, sign,
    toDigits_all_isHarmless, Bool.and_true]
  split
  · simpa only [List.all_cons, marks, Bool.true_and] using inside
  · exact inside

theorem write_harmless (style : DecimalStyle) (number : Double) :
    Harmless (number.write style) := by
  have zero : ['0', '.', '0'].all isHarmless = true := by decide
  have minus : isHarmless '-' = true := by decide
  have magnitude : (if number.isZero then ['0', '.', '0']
      else (number.shortest style.tie).layout style).all isHarmless = true := by
    split
    · exact zero
    · rw [Decimal.layout]
      split
      · exact layoutPlain_all_isHarmless (toDigits_all_isHarmless _) _
      · exact layoutScientific_all_isHarmless (toDigits_all_isHarmless _) _ _
  rw [Harmless, write, String.toList_ofList]
  split
  · rw [List.all_cons, minus, Bool.true_and]
    exact magnitude
  · exact magnitude
end Double

namespace Value

mutual

/-- The tables of the record ids in a value, at every depth. -/
def recordTables : Value → List String
  | .record id => [id.table]
  | .list items => recordTablesOf items
  | .object entries => recordTablesIn entries
  | _ => []

/-- The tables of the record ids in the items of a list. -/
def recordTablesOf : List Value → List String
  | [] => []
  | item :: rest => item.recordTables ++ recordTablesOf rest

/-- The tables of the record ids in the entries of an object. -/
def recordTablesIn : List (String × Value) → List String
  | [] => []
  | (_, item) :: rest => item.recordTables ++ recordTablesIn rest

end

mutual

/-- The literal of a value is balanced, whatever its strings, names and keys say. -/
theorem balanced_literal : (value : Value) → (∀ table ∈ value.recordTables, PlainName table) →
    Balanced value.literal
  | .null, _ => Harmless.balanced (by decide)
  | .bool value, _ => by
    cases value with
    | false => exact Harmless.balanced (by decide)
    | true => exact Harmless.balanced (by decide)
  | .int value, _ => by
    rw [literal]
    exact Balanced.number value
  | .float value, _ => by
    rw [literal]
    split
    · exact (value.write_harmless literalStyle).balanced
    · exact Harmless.balanced (by decide)
  | .string value, _ => by
    rw [literal]
    exact Balanced.quoted value
  | .instant value, _ => by
    rw [literal]
    exact .behind (by decide) (.quoted value.write)
  | .record id, plain => by
    rw [literal]
    exact Balanced.recordId (plain id.table List.mem_cons_self)
  | .list items, plain => by
    rw [recordTables] at plain
    rw [literal]
    exact .between (by decide) (.intercalate (by decide) (balanced_literalItems items plain))
      (by decide)
  | .object entries, plain => by
    rw [recordTables] at plain
    rw [literal]
    split
    · exact Harmless.balanced (by decide)
    · exact .between (by decide)
        (.intercalate (by decide) (balanced_literalEntries entries plain)) (by decide)

theorem balanced_literalItems : (items : List Value) →
    (∀ table ∈ recordTablesOf items, PlainName table) →
    ∀ text ∈ literalItems items, Balanced text
  | [], _ => List.forall_mem_nil _
  | item :: rest, plain => by
    rw [recordTablesOf, List.forall_mem_append] at plain
    rw [literalItems, List.forall_mem_cons]
    exact ⟨balanced_literal item plain.1, balanced_literalItems rest plain.2⟩

theorem balanced_literalEntries : (entries : List (String × Value)) →
    (∀ table ∈ recordTablesIn entries, PlainName table) →
    ∀ text ∈ literalEntries entries, Balanced text
  | [], _ => List.forall_mem_nil _
  | (name, item) :: rest, plain => by
    rw [recordTablesIn, List.forall_mem_append] at plain
    rw [literalEntries, List.forall_mem_cons]
    exact ⟨((Balanced.quoted name).before (by decide)).append (balanced_literal item plain.1),
      balanced_literalEntries rest plain.2⟩

end

end Value

end DocQuery

/-
This file holds the boolean expressions that a statement may contain as text, and their reader.

An expression compares fields with parameters. Members are joined in groups, each in parentheses
of its own and with one connective throughout, so there is nothing left for a precedence of
connectives to decide. A group has a member at least, and between two members stands one
connective. A group of a single member has no connective, and the type says so: it could be
written as text but would not be read back.

The reader is a machine with a stack. It goes over the text from left to right and keeps, for
each group that is open, the members so far and the connective that announced the next. It
reads what is written, whatever follows an expression that is a group, so no two expressions
have the same text.
-/

import Mathlib.Data.List.Basic
import DocQuery.Proofs.FilterMeaning
import DocQuery.Statement.Parameters

namespace DocQuery

/-- A name that stands in the text of a statement as it is: an ASCII letter or an underscore, and
behind it letters, digits and underscores. -/
@[ext] structure Identifier where
  text : String
  plain : RecordKey.isBare text.toList = true

/-- A boolean expression over comparisons of fields with parameters. -/
inductive Formula where
  | compare (field parameter : Identifier)
  /-- A group of one member. -/
  | alone (member : Formula)
  /-- A group of two members or more. -/
  | joined (connective : Connective) (first second : Formula) (others : List Formula)

namespace Formula

/-- Whether the expression is a group. -/
def isGroup : Formula → Bool
  | .compare _ _ => false
  | _ => true

/-- The group of a first member and others. -/
def ofMembers (connective : Connective) (first : Formula) : List Formula → Formula
  | [] => .alone first
  | second :: others => .joined connective first second others

/-! ### Writing -/

mutual

/-- The characters of an expression. -/
def characters : Formula → List Char
  | .compare field parameter =>
    field.text.toList ++ ' ' :: '=' :: ' ' :: '$' :: parameter.text.toList
  | .alone member => '(' :: (member.characters ++ [')'])
  | .joined connective first second others =>
    '(' :: (first.characters ++ connective.separator.toList ++ second.characters ++
      laterCharacters connective others ++ [')'])

/-- The characters of members behind the first ones of a group. -/
def laterCharacters (connective : Connective) : List Formula → List Char
  | [] => []
  | member :: rest =>
    connective.separator.toList ++ member.characters ++ laterCharacters connective rest

end

/-- The text of an expression. -/
def write (formula : Formula) : String :=
  String.ofList formula.characters

/-- No name goes on in a connective. -/
theorem separator_ends (connective : Connective) (rest : List Char) :
    ∀ character ∈ (connective.separator.toList ++ rest).head?,
      RecordKey.continuesBare character = false := by
  intro character next
  cases connective <;> (cases next; decide)

/-- No name goes on behind a member of a group. -/
theorem laterCharacters_ends (connective : Connective) (others : List Formula) (rest : List Char) :
    ∀ character ∈ (laterCharacters connective others ++ ')' :: rest).head?,
      RecordKey.continuesBare character = false := by
  intro character next
  cases others with
  | nil =>
    cases next
    decide
  | cons member others =>
    rw [laterCharacters, List.append_assoc, List.append_assoc] at next
    exact separator_ends connective _ character next

theorem characters_ofMembers (connective : Connective) (first : Formula) (others : List Formula) :
    (ofMembers connective first others).characters =
      '(' :: (first.characters ++ laterCharacters connective others ++ [')']) := by
  cases others with
  | nil => simp [ofMembers, characters, laterCharacters]
  | cons second rest => simp [ofMembers, characters, laterCharacters]

end Formula

/-! ### Words and marks -/

/-- A part of a text: a run of letters, digits and underscores, or a single other character. -/
inductive Token where
  | word (characters : List Char)
  | mark (character : Char)
  deriving DecidableEq

namespace Token

/-- The words and marks of a text. -/
def scan : List Char → List Token
  | [] => []
  | character :: rest =>
    if RecordKey.continuesBare character then
      match scan rest with
      | .word characters :: later => .word (character :: characters) :: later
      | later => .word [character] :: later
    else .mark character :: scan rest

theorem scan_mark {character : Char} (mark : RecordKey.continuesBare character = false)
    (rest : List Char) : scan (character :: rest) = .mark character :: scan rest := by
  rw [scan, if_neg (by simp [mark])]

/-- A word ends where a mark follows it or nothing. -/
theorem scan_word {word : List Char} (nonempty : word ≠ [])
    (plain : word.all RecordKey.continuesBare = true) {rest : List Char}
    (ends : ∀ character ∈ rest.head?, RecordKey.continuesBare character = false) :
    scan (word ++ rest) = .word word :: scan rest := by
  induction word with
  | nil => exact absurd rfl nonempty
  | cons character later inductionHypothesis =>
    rw [List.all_cons, Bool.and_eq_true] at plain
    rw [List.cons_append, scan, if_pos plain.1]
    cases later with
    | nil =>
      cases rest with
      | nil => rfl
      | cons next others =>
        have mark := ends next rfl
        rw [List.nil_append, scan_mark mark]
    | cons next others => rw [inductionHypothesis (by simp) plain.2]

end Token

theorem Identifier.ne_nil (name : Identifier) : name.text.toList ≠ [] := by
  intro empty
  have plain := name.plain
  rw [empty] at plain
  cases plain

theorem Identifier.all_continuesBare (name : Identifier) :
    name.text.toList.all RecordKey.continuesBare = true := by
  have plain := name.plain
  cases shape : name.text.toList with
  | nil => rfl
  | cons first rest =>
    rw [shape, RecordKey.isBare, Bool.and_eq_true] at plain
    have start : RecordKey.continuesBare first = true := by
      have := plain.1
      simp only [RecordKey.startsBare, RecordKey.continuesBare, Char.isAlphanum,
        Bool.or_eq_true] at this ⊢
      exact this.imp_left Or.inl
    rw [List.all_cons, start, plain.2]
    rfl

/-! ### Reading -/

/-- The connective of a word. -/
def Connective.read? : List Char → Option Connective
  | ['A', 'N', 'D'] => some .and
  | ['O', 'R'] => some .or
  | _ => none

namespace Formula

/-- A group that is open and awaits a member: its first one, or the one behind a connective. -/
inductive Pending where
  | opened
  | after (connective : Connective) (first : Formula) (others : List Formula)

namespace Pending

/-- The group with its last member. -/
def close : Pending → Formula → Formula
  | .opened, member => .alone member
  | .after connective first others, member => ofMembers connective first (others ++ [member])

/-- The group with one more member and the connective behind it, which must be that of the
group. -/
def join? : Pending → Formula → Connective → Option Pending
  | .opened, member, connective => some (.after connective member [])
  | .after own first others, member, connective =>
    if own = connective then some (.after own first (others ++ [member])) else none

end Pending

/-- The comparison of two words, which must be names. -/
def comparison? (field parameter : List Char) : Option Formula :=
  if plain : RecordKey.isBare field = true ∧ RecordKey.isBare parameter = true then
    some (.compare ⟨String.ofList field, by simpa using plain.1⟩
      ⟨String.ofList parameter, by simpa using plain.2⟩)
  else none

mutual

/-- Reads a member of the innermost open group, and then on. -/
def readMember : List Pending → List Token → Option (Formula × List Token)
  | groups, .mark '(' :: rest => readMember (.opened :: groups) rest
  | groups, .word field :: .mark ' ' :: .mark '=' :: .mark ' ' :: .mark '$' ::
      .word parameter :: rest =>
    match comparison? field parameter with
    | some member => readOn groups member rest
    | none => none
  | _, _ => none

/-- Reads on behind a member of the innermost open group. If no group is open, the member is what
has been read. -/
def readOn : List Pending → Formula → List Token → Option (Formula × List Token)
  | [], member, rest => some (member, rest)
  | pending :: groups, member, .mark ')' :: rest => readOn groups (pending.close member) rest
  | pending :: groups, member, .mark ' ' :: .word word :: .mark ' ' :: rest =>
    match (Connective.read? word).bind (pending.join? member) with
    | some next => readMember (next :: groups) rest
    | none => none
  | _, _, _ => none

end

/-- Reads the group that a text starts with, and tells what follows it. -/
def read? (text : String) : Option (Formula × List Token) :=
  match Token.scan text.toList with
  | .mark '(' :: rest => readMember [.opened] rest
  | _ => none

/-! ### What is written reads back -/

/-- What is read behind a connective of the group. -/
theorem readOn_connective (pending : Pending) (groups : List Pending) (member : Formula)
    (connective : Connective) (rest : List Char) :
    readOn (pending :: groups) member (Token.scan (connective.separator.toList ++ rest)) =
      match pending.join? member connective with
      | some next => readMember (next :: groups) (Token.scan rest)
      | none => none := by
  have space : RecordKey.continuesBare ' ' = false := by decide
  have word (keyword : List Char) (nonempty : keyword ≠ [])
      (plain : keyword.all RecordKey.continuesBare = true) :
      Token.scan (' ' :: (keyword ++ ' ' :: rest)) =
        .mark ' ' :: .word keyword :: .mark ' ' :: Token.scan rest := by
    rw [Token.scan_mark space,
      Token.scan_word nonempty plain (by intro character next; cases next; exact space),
      Token.scan_mark space]
  cases connective with
  | and =>
    show readOn _ member (Token.scan (' ' :: (['A', 'N', 'D'] ++ ' ' :: rest))) = _
    rw [word _ (by simp) (by decide), readOn]
    rfl
  | or =>
    show readOn _ member (Token.scan (' ' :: (['O', 'R'] ++ ' ' :: rest))) = _
    rw [word _ (by simp) (by decide), readOn]
    rfl

theorem readOn_close (pending : Pending) (groups : List Pending) (member : Formula)
    (rest : List Char) :
    readOn (pending :: groups) member (Token.scan (')' :: rest)) =
      readOn groups (pending.close member) (Token.scan rest) := by
  rw [Token.scan_mark (by decide), readOn]

theorem readMember_open (groups : List Pending) (rest : List Char) :
    readMember groups (Token.scan ('(' :: rest)) =
      readMember (.opened :: groups) (Token.scan rest) := by
  rw [Token.scan_mark (by decide), readMember]

/-- A comparison is read if no name goes on behind it. -/
theorem readMember_compare (groups : List Pending) (field parameter : Identifier)
    {rest : List Char}
    (ends : ∀ character ∈ rest.head?, RecordKey.continuesBare character = false) :
    readMember groups (Token.scan ((compare field parameter).characters ++ rest)) =
      readOn groups (compare field parameter) (Token.scan rest) := by
  have space : RecordKey.continuesBare ' ' = false := by decide
  rw [characters, List.append_assoc,
    Token.scan_word field.ne_nil field.all_continuesBare
      (by intro character next; cases next; exact space)]
  simp only [List.cons_append]
  rw [Token.scan_mark space, Token.scan_mark (by decide), Token.scan_mark space,
    Token.scan_mark (by decide),
    Token.scan_word parameter.ne_nil parameter.all_continuesBare ends, readMember]
  have names : comparison? field.text.toList parameter.text.toList =
      some (compare field parameter) := by
    rw [comparison?, dif_pos ⟨field.plain, parameter.plain⟩]
    simp only [String.ofList_toList]
  rw [names]

mutual

/-- Every expression is read as the member that it is, with what follows still to be read. A
comparison must be followed by the end of its name, a group may be followed by anything. -/
theorem readMember_characters : (formula : Formula) → (groups : List Pending) →
    (rest : List Char) →
    (formula.isGroup = true ∨
      ∀ character ∈ rest.head?, RecordKey.continuesBare character = false) →
    readMember groups (Token.scan (formula.characters ++ rest)) =
      readOn groups formula (Token.scan rest)
  | .compare field parameter, groups, rest, ends => by
    rcases ends with group | ends
    · cases group
    · exact readMember_compare groups field parameter ends
  | .alone member, groups, rest, _ => by
    rw [characters, List.cons_append, readMember_open, List.append_assoc,
      readMember_characters member _ _ (Or.inr (by intro character next; cases next; decide)),
      List.singleton_append, readOn_close, Pending.close]
  | .joined connective first second others, groups, rest, _ => by
    rw [characters, List.cons_append, readMember_open]
    simp only [List.append_assoc]
    rw [readMember_characters first _ _ (Or.inr (separator_ends connective _)),
      readOn_connective]
    simp only [Pending.join?]
    rw [List.singleton_append,
      readMember_characters second _ _ (Or.inr (laterCharacters_ends connective others _)),
      readOn_laterCharacters others connective first [] second groups rest]
    rfl

/-- Members behind the first ones of a group are read up to the end of the group. -/
theorem readOn_laterCharacters : (others : List Formula) → (connective : Connective) →
    (first : Formula) → (earlier : List Formula) → (member : Formula) →
    (groups : List Pending) → (rest : List Char) →
    readOn (.after connective first earlier :: groups) member
        (Token.scan (laterCharacters connective others ++ ')' :: rest)) =
      readOn groups (ofMembers connective first (earlier ++ member :: others)) (Token.scan rest)
  | [], connective, first, earlier, member, groups, rest => by
    rw [laterCharacters, List.nil_append, readOn_close, Pending.close]
  | next :: others, connective, first, earlier, member, groups, rest => by
    rw [laterCharacters]
    simp only [List.append_assoc]
    rw [readOn_connective]
    simp only [Pending.join?, if_true]
    rw [readMember_characters next _ _
        (Or.inr (laterCharacters_ends connective others _)),
      readOn_laterCharacters others connective first (earlier ++ [member]) next groups rest,
      List.append_assoc, List.singleton_append]

end

/-- A group at the start of a text is read, whatever follows it. -/
theorem read?_write_append {formula : Formula} (group : formula.isGroup = true) (rest : String) :
    read? (formula.write ++ rest) = some (formula, Token.scan rest.toList) := by
  have characters : (formula.write ++ rest).toList = formula.characters ++ rest.toList := by
    rw [String.toList_append, write, String.toList_ofList]
  have read := readMember_characters formula [] rest.toList (Or.inl group)
  rw [readOn] at read
  obtain ⟨inner, shape⟩ : ∃ inner, formula.characters = '(' :: inner := by
    cases formula with
    | compare field parameter => cases group
    | alone member => exact ⟨_, rfl⟩
    | joined connective first second others => exact ⟨_, rfl⟩
  rw [read?, characters, ← read, shape, List.cons_append, readMember_open,
    Token.scan_mark (by decide)]
  rfl

/-- No two expressions have the same text. -/
theorem write_injective {formula other : Formula} (same : formula.write = other.write) :
    formula = other := by
  have read (formula : Formula) :
      readMember [] (Token.scan formula.write.toList) = some (formula, []) := by
    have whole := readMember_characters formula [] [] (Or.inr (by simp))
    rwa [List.append_nil, readOn, ← String.toList_ofList (l := formula.characters)] at whole
  have readings := read formula
  rw [same, read other] at readings
  exact (congrArg Prod.fst (Option.some_inj.mp readings)).symm

/-! ### Evaluating -/

mutual

/-- Whether an expression holds for a record that satisfies the given comparisons, with the value
of each parameter looked up by its name. There is no answer if a parameter has no value. -/
def evaluate? (bindings : Bindings) (holds : Constraint → Bool) : Formula → Option Bool
  | .compare field parameter =>
    (bindings.find? parameter.text).map fun value => holds (field.text, value)
  | .alone member => member.evaluate? bindings holds
  | .joined connective first second others =>
    match first.evaluate? bindings holds, second.evaluate? bindings holds,
      evaluateAll? bindings holds others with
    | some first, some second, some others => some (connective.combine (first :: second :: others))
    | _, _, _ => none

/-- Which of the expressions hold, if there is an answer for each. -/
def evaluateAll? (bindings : Bindings) (holds : Constraint → Bool) :
    List Formula → Option (List Bool)
  | [] => some []
  | member :: rest =>
    match member.evaluate? bindings holds, evaluateAll? bindings holds rest with
    | some first, some others => some (first :: others)
    | _, _ => none

end

/-- The group of members that have an answer holds as its connective says. -/
theorem evaluate?_ofMembers {bindings : Bindings} {holds : Constraint → Bool} {first : Formula}
    {others : List Formula} {value : Bool} {values : List Bool}
    (firstValue : first.evaluate? bindings holds = some value)
    (otherValues : evaluateAll? bindings holds others = some values) (connective : Connective) :
    (ofMembers connective first others).evaluate? bindings holds =
      some (connective.combine (value :: values)) := by
  cases others with
  | nil =>
    cases otherValues
    rw [ofMembers, evaluate?, firstValue, Connective.combine_singleton]
  | cons second rest =>
    rw [evaluateAll?] at otherValues
    rw [ofMembers, evaluate?, firstValue]
    cases secondValue : second.evaluate? bindings holds with
    | none => simp [secondValue] at otherValues
    | some secondResult =>
      cases restValues : evaluateAll? bindings holds rest with
      | none => simp [secondValue, restValues] at otherValues
      | some restResults =>
        simp only [secondValue, restValues, Option.some_inj] at otherValues
        simp only [otherValues]

end Formula

end DocQuery

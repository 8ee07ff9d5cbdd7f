/-
This file reads literals back from the text of a statement.

A value that holds no others is told by how its text begins: a quote for a string, and else a word,
which is the table of a record id if a colon follows it. What stands between quotes or brackets
ends at the first closing character that has no backslash of its own, so separators and closing
marks in there are not seen. The reader of the others is a machine with a stack: it keeps, for each
list and object that is open, what has been read of it.

What is read ends where the literal ends, whatever follows it, as long as no word goes on there.
A list is told from an empty one by the fact that no literal begins with a closing bracket, and that
follows from the reading of its first item.
-/

import DocQuery.Proofs.RecordIdText
import DocQuery.Proofs.Scan

namespace DocQuery

/-! ### Strings and keys in brackets -/

namespace Enclosure

/-- What a character behind a backslash stands for. -/
def meaning : Enclosure → Char → Char
  | .string, 'n' => '\n'
  | .string, 'r' => '\r'
  | .string, 't' => '\t'
  | _, character => character

/-- Reads up to the closing character, and tells what follows it. -/
def read (enclosure : Enclosure) : List Char → Option (List Char × List Char)
  | [] => none
  | '\\' :: character :: rest =>
    (enclosure.read rest).map fun parts => (enclosure.meaning character :: parts.1, parts.2)
  | character :: rest =>
    if character = enclosure.closing then some ([], rest)
    else (enclosure.read rest).map fun parts => (character :: parts.1, parts.2)

/-- The characters by which a character is written. -/
def spell : Enclosure → Char → List Char
  | .string, character => Text.escapeQuoted character
  | .key, character =>
    if character = '\\' ∨ character = '⟩' then ['\\', character] else [character]

/-- A character is written as itself, unless it would be taken for the end or for a backslash that
belongs to what follows. -/
theorem spell_cases (enclosure : Enclosure) (character : Char) :
    (∃ mark, enclosure.spell character = ['\\', mark] ∧ enclosure.meaning mark = character) ∨
      enclosure.spell character = [character] ∧ character ≠ '\\' ∧
        character ≠ enclosure.closing := by
  cases enclosure with
  | string =>
    show (∃ mark, Text.escapeQuoted character = ['\\', mark] ∧ _) ∨
      Text.escapeQuoted character = [character] ∧ _
    unfold Text.escapeQuoted
    split
    · exact .inl ⟨'"', rfl, by subst character; rfl⟩
    · rename_i noClosing
      split
      · exact .inl ⟨'\\', rfl, by subst character; rfl⟩
      · rename_i noBackslash
        split
        · exact .inl ⟨'n', rfl, by subst character; rfl⟩
        · split
          · exact .inl ⟨'r', rfl, by subst character; rfl⟩
          · split
            · exact .inl ⟨'t', rfl, by subst character; rfl⟩
            · exact .inr ⟨rfl, noBackslash, noClosing⟩
  | key =>
    rw [spell]
    split
    · exact .inl ⟨character, rfl, rfl⟩
    · rename_i plain
      exact .inr ⟨rfl, fun same => plain (.inl same), fun same => plain (.inr same)⟩

theorem read_cons (enclosure : Enclosure) {character : Char} (plain : character ≠ '\\')
    (rest : List Char) :
    enclosure.read (character :: rest) =
      if character = enclosure.closing then some ([], rest)
      else (enclosure.read rest).map fun parts => (character :: parts.1, parts.2) := by
  rw [read]
  exact fun _ _ same => absurd same plain

/-- A text is read back up to the closing character. -/
theorem read_spelled (enclosure : Enclosure) (text rest : List Char) :
    enclosure.read (text.flatMap enclosure.spell ++ enclosure.closing :: rest) =
      some (text, rest) := by
  induction text with
  | nil =>
    have closes : enclosure.closing ≠ '\\' := by cases enclosure <;> decide
    rw [List.flatMap_nil, List.nil_append, read_cons enclosure closes, if_pos rfl]
  | cons character later inductionHypothesis =>
    rw [List.flatMap_cons, List.append_assoc]
    obtain ⟨mark, spelled, means⟩ | ⟨spelled, noBackslash, noClosing⟩ :=
      enclosure.spell_cases character
    · rw [spelled, List.cons_append, List.singleton_append, read, inductionHypothesis,
        Option.map_some, means]
    · rw [spelled, List.singleton_append, read_cons enclosure noBackslash, if_neg noClosing,
        inductionHypothesis, Option.map_some]

theorem length_lt_of_read {enclosure : Enclosure} {text : List Char}
    {parts : List Char × List Char} (found : enclosure.read text = some parts) :
    parts.2.length < text.length := by
  fun_induction read enclosure text generalizing parts with
  | case1 => cases found
  | case2 character rest inductionHypothesis =>
    obtain ⟨inner, reads, rfl⟩ := Option.map_eq_some_iff.mp found
    have shorter := inductionHypothesis reads
    simp only [List.length_cons]
    omega
  | case3 rest noEscape =>
    cases found
    exact Nat.lt_succ_self _
  | case4 character rest noEscape noClosing inductionHypothesis =>
    obtain ⟨inner, reads, rfl⟩ := Option.map_eq_some_iff.mp found
    have shorter := inductionHypothesis reads
    simp only [List.length_cons]
    omega

end Enclosure

theorem RecordKey.escape_eq_flatMap (text : List Char) :
    escape text = text.flatMap Enclosure.key.spell := by
  induction text with
  | nil => rfl
  | cons character rest inductionHypothesis =>
    rw [escape, List.flatMap_cons, Enclosure.spell, inductionHypothesis]
    split <;> rfl

/-! ### Words and keys -/

namespace RecordKey

/-- A word ends where nothing goes on in it. -/
theorem span_append {word rest : List Char} (stands : word.all standsBare = true)
    (ends : ∀ character ∈ rest.head?, standsBare character = false) :
    (word ++ rest).takeWhile standsBare = word ∧ (word ++ rest).dropWhile standsBare = rest := by
  rw [List.takeWhile_append_of_pos (List.all_eq_true.mp stands),
    List.dropWhile_append_of_pos (List.all_eq_true.mp stands)]
  cases rest with
  | nil => exact ⟨List.append_nil word, rfl⟩
  | cons character later =>
    have noWord := ends character rfl
    rw [List.takeWhile_cons_of_neg (by simp [noWord]),
      List.dropWhile_cons_of_neg (by simp [noWord])]
    exact ⟨List.append_nil word, rfl⟩

/-- Reads the key that a text begins with, and tells what follows it. -/
def readFrom : List Char → Option (RecordKey × List Char)
  | '⟨' :: inside =>
    (Enclosure.key.read inside).map fun parts => (.text (String.ofList parts.1), parts.2)
  | other => some (read (other.takeWhile standsBare), other.dropWhile standsBare)

theorem readFrom_characters (key : RecordKey) {rest : List Char}
    (ends : ∀ character ∈ rest.head?, standsBare character = false) :
    readFrom (key.characters ++ rest) = some (key, rest) := by
  by_cases bare : key.HasNoBrackets
  · obtain ⟨first, later, shape, stands⟩ := bare.exists_cons
    obtain ⟨word, behind⟩ := span_append bare.all_standsBare ends
    have noBracket : first ≠ '⟨' := by
      rintro rfl
      exact absurd stands (by decide)
    unfold readFrom
    split
    · rename_i others begins
      rw [shape] at begins
      exact absurd (List.cons.inj begins).1 noBracket
    · rw [word, behind, read_characters]
  · cases key with
    | number value => exact absurd trivial bare
    | text value =>
      have closing : ['⟩'] ++ rest = Enclosure.key.closing :: rest := rfl
      rw [characters, if_neg (by exact bare), escape_eq_flatMap, List.append_assoc, closing,
        List.cons_append, readFrom, Enclosure.read_spelled, Option.map_some, String.ofList_toList]

end RecordKey

theorem RecordKey.length_le_of_readFrom {text : List Char} {parts : RecordKey × List Char}
    (found : readFrom text = some parts) : parts.2.length ≤ text.length := by
  unfold readFrom at found
  split at found
  · obtain ⟨inner, reads, rfl⟩ := Option.map_eq_some_iff.mp found
    have shorter := Enclosure.length_lt_of_read reads
    simp only [List.length_cons]
    omega
  · cases found
    exact (List.dropWhile_sublist _).length_le

/-! ### Values that hold no others -/

namespace Value

mutual

/-- The values in a value that hold no others, at every depth and in order. -/
def leaves : Value → List Value
  | .list items => leavesOf items
  | .object entries => leavesIn entries
  | leaf => [leaf]

/-- The values in the items of a list that hold no others. -/
def leavesOf : List Value → List Value
  | [] => []
  | item :: rest => item.leaves ++ leavesOf rest

/-- The values in the entries of an object that hold no others. -/
def leavesIn : List (String × Value) → List Value
  | [] => []
  | (_, item) :: rest => item.leaves ++ leavesIn rest

end

/-- Whether a value holds no others and is told by its text. Doubles and instants are written
through conversions of their own, and the table of a record id must be a plain name. -/
def IsTold : Value → Prop
  | .null => True
  | .bool _ => True
  | .int _ => True
  | .string _ => True
  | .record id => PlainName id.table
  | _ => False

instance : (value : Value) → Decidable value.IsTold
  | .null => .isTrue trivial
  | .bool _ => .isTrue trivial
  | .int _ => .isTrue trivial
  | .string _ => .isTrue trivial
  | .record id => inferInstanceAs (Decidable (PlainName id.table))
  | .float _ => .isFalse id
  | .instant _ => .isFalse id
  | .list _ => .isFalse id
  | .object _ => .isFalse id

/-- The value that a word stands for. -/
def ofWord? (word : List Char) : Option Value :=
  if word = "NONE".toList then some .null
  else if word = "true".toList then some (.bool true)
  else if word = "false".toList then some (.bool false)
  else (Text.readInt64? word).map .int

/-- Reads the value that a text begins with, if it holds no others, and tells what follows it. -/
def readLeaf : List Char → Option (Value × List Char)
  | '"' :: text =>
    (Enclosure.string.read text).map fun parts => (.string (String.ofList parts.1), parts.2)
  | text =>
    match text.dropWhile RecordKey.standsBare with
    | ':' :: rest =>
      (RecordKey.readFrom rest).map fun parts =>
        (.record ⟨String.ofList (text.takeWhile RecordKey.standsBare), parts.1⟩, parts.2)
    | rest => (ofWord? (text.takeWhile RecordKey.standsBare)).map fun value => (value, rest)

/-- Reads the name of an entry up to the value, and tells what follows it. -/
def readName : List Char → Option (String × List Char)
  | '"' :: text =>
    match Enclosure.string.read text with
    | some (name, ':' :: ' ' :: rest) => some (String.ofList name, rest)
    | _ => none
  | _ => none

theorem length_lt_of_readLeaf {text : List Char} {parts : Value × List Char}
    (found : readLeaf text = some parts) : parts.2.length < text.length := by
  unfold readLeaf at found
  split at found
  · obtain ⟨inner, reads, rfl⟩ := Option.map_eq_some_iff.mp found
    have shorter := Enclosure.length_lt_of_read reads
    simp only [List.length_cons]
    omega
  · have whole := congrArg List.length
      (List.takeWhile_append_dropWhile (p := RecordKey.standsBare) (l := text))
    rw [List.length_append] at whole
    split at found
    · rename_i rest behind
      obtain ⟨inner, reads, rfl⟩ := Option.map_eq_some_iff.mp found
      have keyShorter := RecordKey.length_le_of_readFrom reads
      rw [behind, List.length_cons] at whole
      dsimp only
      omega
    · obtain ⟨value, word, rfl⟩ := Option.map_eq_some_iff.mp found
      have nonempty : text.takeWhile RecordKey.standsBare ≠ [] := by
        intro empty
        rw [empty] at word
        cases word
      have positive := List.length_pos_iff.mpr nonempty
      dsimp only
      omega

theorem length_lt_of_readName {text : List Char} {parts : String × List Char}
    (found : readName text = some parts) : parts.2.length < text.length := by
  unfold readName at found
  split at found
  · split at found
    · rename_i reads
      cases found
      have shorter := Enclosure.length_lt_of_read reads
      simp only [List.length_cons] at shorter ⊢
      omega
    · cases found
  · cases found

/-! ### Lists and objects -/

/-- A list or an object that is open, with what has been read of it. -/
inductive Container where
  | list (items : List Value)
  /-- An object with its entries so far and the name whose value is due. -/
  | object (entries : List (String × Value)) (name : String)

mutual

/-- Reads a value of the innermost open container, and then on. -/
def readValue (containers : List Container) (text : List Char) :
    Option (Value × List Char) :=
  match text with
  | '[' :: ']' :: rest => readOn containers (.list []) rest
  | '[' :: rest => readValue (.list [] :: containers) rest
  | '\x7b' :: '\x7d' :: rest => readOn containers (.object []) rest
  | '\x7b' :: ' ' :: rest => readEntry [] containers rest
  | text =>
    match reads : readLeaf text with
    | some parts =>
      have := length_lt_of_readLeaf reads
      readOn containers parts.1 parts.2
    | none => none
termination_by text.length

/-- Reads the next entry of an object, and then on. -/
def readEntry (entries : List (String × Value)) (containers : List Container)
    (text : List Char) : Option (Value × List Char) :=
  match reads : readName text with
  | some parts =>
    have := length_lt_of_readName reads
    readValue (.object entries parts.1 :: containers) parts.2
  | none => none
termination_by text.length

/-- Reads on behind a value of the innermost open container. If none is open, the value is what has
been read. -/
def readOn (containers : List Container) (value : Value) (text : List Char) :
    Option (Value × List Char) :=
  match containers, text with
  | [], rest => some (value, rest)
  | .list items :: others, ']' :: rest => readOn others (.list (items ++ [value])) rest
  | .list items :: others, ',' :: ' ' :: rest =>
    readValue (.list (items ++ [value]) :: others) rest
  | .object entries name :: others, ' ' :: '\x7d' :: rest =>
    readOn others (.object (entries ++ [(name, value)])) rest
  | .object entries name :: others, ',' :: ' ' :: rest =>
    readEntry (entries ++ [(name, value)]) others rest
  | _, _ => none
termination_by text.length

end

/-- Reads the literal that a text begins with, and tells what follows it. -/
def ofLiteral? (text : String) : Option (Value × String) :=
  (readValue [] text.toList).map fun parts => (parts.1, String.ofList parts.2)

/-! ### Steps of the reader -/

section Steps

variable {containers : List Container} {text rest : List Char} {value : Value}
  {items : List Value} {entries : List (String × Value)} {name next : String}

/-- A mark of a list or of an object is not the beginning of a value that holds no others. -/
theorem readLeaf_mark {mark : Char} (isMark : mark = '[' ∨ mark = ']' ∨ mark = '\x7b')
    (rest : List Char) : readLeaf (mark :: rest) = none := by
  rcases isMark with rfl | rfl | rfl <;> rfl

theorem readValue_of_readLeaf (reads : readLeaf text = some (value, rest)) :
    readValue containers text = readOn containers value rest := by
  rw [readValue.eq_def]
  split
  · rw [readLeaf_mark (by decide)] at reads
    cases reads
  · rw [readLeaf_mark (by decide)] at reads
    cases reads
  · rw [readLeaf_mark (by decide)] at reads
    cases reads
  · rw [readLeaf_mark (by decide)] at reads
    cases reads
  · split
    · rename_i parts found
      rw [reads] at found
      cases found
      rfl
    · rename_i found
      rw [reads] at found
      cases found

theorem readValue_emptyList :
    readValue containers ('[' :: ']' :: rest) = readOn containers (.list []) rest := by
  rw [readValue]

theorem readValue_list (item : ∀ later, rest ≠ ']' :: later) :
    readValue containers ('[' :: rest) = readValue (.list [] :: containers) rest := by
  rw [readValue]
  exact item

theorem readValue_emptyObject :
    readValue containers ('\x7b' :: '\x7d' :: rest) = readOn containers (.object []) rest := by
  rw [readValue]

theorem readValue_object :
    readValue containers ('\x7b' :: ' ' :: rest) = readEntry [] containers rest := by
  rw [readValue]

/-- No value begins with a closing bracket. -/
theorem readValue_closing : readValue containers (']' :: rest) = none := by
  rw [readValue]
  · split
    · rename_i parts found
      rw [readLeaf_mark (by decide)] at found
      cases found
    · rfl
  all_goals
    intro _ same
    cases same

theorem readEntry_of_readName (reads : readName text = some (name, rest)) :
    readEntry entries containers text = readValue (.object entries name :: containers) rest := by
  rw [readEntry]
  split
  · rename_i parts found
    rw [reads] at found
    cases found
    rfl
  · rename_i found
    rw [reads] at found
    cases found

theorem readOn_nil : readOn [] value rest = some (value, rest) := by
  rw [readOn]

theorem readOn_closeList :
    readOn (.list items :: containers) value (']' :: rest) =
      readOn containers (.list (items ++ [value])) rest := by
  rw [readOn]

theorem readOn_nextItem :
    readOn (.list items :: containers) value (',' :: ' ' :: rest) =
      readValue (.list (items ++ [value]) :: containers) rest := by
  rw [readOn]

theorem readOn_closeObject :
    readOn (.object entries name :: containers) value (' ' :: '\x7d' :: rest) =
      readOn containers (.object (entries ++ [(name, value)])) rest := by
  rw [readOn]

theorem readOn_nextEntry :
    readOn (.object entries name :: containers) value (',' :: ' ' :: rest) =
      readEntry (entries ++ [(name, value)]) containers rest := by
  rw [readOn]

end Steps

/-! ### What is written reads back -/

/-- Whether a text begins with what stands behind a literal: a blank, a separator, a closing mark or
the end of the statement. -/
def EndsLiteral (text : List Char) : Prop :=
  ∀ character ∈ text.head?, character ∈ [' ', ',', ']', '\x7d', ';']

instance : (text : List Char) → Decidable (EndsLiteral text)
  | [] => .isTrue nofun
  | first :: _ => decidable_of_iff (first ∈ [' ', ',', ']', '\x7d', ';'])
    ⟨fun closing _ same => Option.some_inj.mp same ▸ closing, fun ends => ends first rfl⟩

theorem EndsLiteral.endsWord {text : List Char} (ends : EndsLiteral text) :
    ∀ character ∈ text.head?, RecordKey.standsBare character = false ∧ character ≠ ':' := by
  have apart : ([' ', ',', ']', '\x7d', ';'].all fun character =>
      !RecordKey.standsBare character && character != ':') = true := by decide
  intro character first
  have closing := List.all_eq_true.mp apart character (ends character first)
  simpa using closing

theorem toList_quoted (text : String) :
    (Text.quoted text).toList = '"' :: (text.toList.flatMap Enclosure.string.spell ++ ['"']) :=
  String.toList_ofList

theorem readLeaf_quoted (text : String) (rest : List Char) :
    readLeaf ((Text.quoted text).toList ++ rest) = some (.string text, rest) := by
  have closing : ['"'] ++ rest = Enclosure.string.closing :: rest := rfl
  rw [toList_quoted, List.cons_append, List.append_assoc, closing, readLeaf,
    Enclosure.read_spelled, Option.map_some, String.ofList_toList]

theorem readName_quoted (name : String) (rest : List Char) :
    readName ((Text.quoted name).toList ++ ':' :: ' ' :: rest) = some (name, rest) := by
  have closing : ['"'] ++ ':' :: ' ' :: rest = Enclosure.string.closing :: ':' :: ' ' :: rest := rfl
  rw [toList_quoted, List.cons_append, List.append_assoc, closing, readName,
    Enclosure.read_spelled]
  exact congrArg (fun name => some (name, rest)) String.ofList_toList

/-- A text that begins like a word is no string. -/
theorem readLeaf_cons {first : Char} (stands : RecordKey.standsBare first = true)
    (others : List Char) :
    readLeaf (first :: others) =
      match (first :: others).dropWhile RecordKey.standsBare with
      | ':' :: rest =>
        (RecordKey.readFrom rest).map fun parts =>
          (.record ⟨String.ofList ((first :: others).takeWhile RecordKey.standsBare), parts.1⟩,
            parts.2)
      | rest =>
        (ofWord? ((first :: others).takeWhile RecordKey.standsBare)).map fun value =>
          (value, rest) := by
  rw [readLeaf]
  rintro text same
  rw [(List.cons.inj same).1] at stands
  exact absurd stands (by decide)

theorem readLeaf_word {word rest : List Char} {value : Value} (denotes : ofWord? word = some value)
    (stands : word.all RecordKey.standsBare = true) (ends : EndsLiteral rest) :
    readLeaf (word ++ rest) = some (value, rest) := by
  obtain ⟨run, behind⟩ :=
    RecordKey.span_append stands fun character first => (ends.endsWord character first).1
  cases word with
  | nil => cases denotes
  | cons first later =>
    rw [List.cons_append] at run behind ⊢
    rw [List.all_cons, Bool.and_eq_true] at stands
    rw [readLeaf_cons stands.1, run, behind]
    split
    · rename_i others
      exact absurd rfl (ends.endsWord ':' rfl).2
    · rw [denotes, Option.map_some]

/-- No number is spelled like one of the words that stand for other values. -/
theorem ofWord?_of_readInt64? {word : List Char} {number : Int64}
    (reads : Text.readInt64? word = some number) : ofWord? word = some (.int number) := by
  have noNumber : ∀ other ∈ ["NONE".toList, "true".toList, "false".toList],
      Text.readInt64? other = none := by decide
  have different : ∀ other ∈ ["NONE".toList, "true".toList, "false".toList], word ≠ other := by
    rintro other member rfl
    rw [noNumber word member] at reads
    cases reads
  rw [ofWord?, if_neg (different _ (by decide)), if_neg (different _ (by decide)),
    if_neg (different _ (by decide)), reads, Option.map_some]

theorem readLeaf_record {id : RecordId} (plain : PlainName id.table) {rest : List Char}
    (ends : EndsLiteral rest) : readLeaf (id.write.toList ++ rest) = some (.record id, rest) := by
  have stands : id.table.toList.all RecordKey.standsBare = true := by
    have bare : RecordKey.HasNoBrackets (.text id.table) := plain
    have all := bare.all_standsBare
    rwa [RecordKey.characters_bare plain] at all
  have colon : ∀ character ∈ (':' :: (id.key.characters ++ rest)).head?,
      RecordKey.standsBare character = false := by
    rintro character ⟨⟩
    decide
  obtain ⟨run, behind⟩ := RecordKey.span_append stands colon
  have key := id.key.readFrom_characters fun character first =>
    (ends.endsWord character first).1
  obtain ⟨first, later, shape, -⟩ := plain.exists_cons
  rw [RecordId.toList_write, List.append_assoc, List.cons_append]
  rw [shape, List.cons_append] at run behind ⊢
  rw [shape, List.all_cons, Bool.and_eq_true] at stands
  rw [readLeaf_cons stands.1, run, behind]
  simp only [key, Option.map_some]
  rw [← shape, String.ofList_toList]

/-- A value that holds no others is read back. -/
theorem readLeaf_literal {value : Value} (told : value.IsTold) {rest : List Char}
    (ends : EndsLiteral rest) : readLeaf (value.literal.toList ++ rest) = some (value, rest) := by
  cases value with
  | null => exact readLeaf_word rfl (by decide) ends
  | bool truth =>
    cases truth with
    | false => exact readLeaf_word rfl (by decide) ends
    | true => exact readLeaf_word rfl (by decide) ends
  | int number =>
    rw [literal]
    exact readLeaf_word (ofWord?_of_readInt64? (Text.readInt64?_writeInt64 number))
      (RecordKey.characters_number number).1 ends
  | float number => exact absurd told id
  | string text =>
    rw [literal]
    exact readLeaf_quoted text rest
  | instant instant => exact absurd told id
  | record id =>
    rw [literal]
    exact readLeaf_record told ends
  | list items => exact absurd told id
  | object entries => exact absurd told id

/-- Texts behind one another, each with the separator of lists and objects in front. -/
def laterLiterals (texts : List String) : List Char :=
  texts.flatMap fun text => ',' :: ' ' :: text.toList

theorem toList_intercalate_literals (first : String) (others : List String) :
    (String.intercalate ", " (first :: others)).toList = first.toList ++ laterLiterals others :=
  toList_intercalate ", " first others

/-- The text of an entry is its quoted name and its value. -/
theorem toList_entry_append (name : String) (item : Value) (rest : List Char) :
    (Text.quoted name ++ ": " ++ item.literal).toList ++ rest =
      (Text.quoted name).toList ++ ':' :: ' ' :: (item.literal.toList ++ rest) := by
  have colon : ": ".toList = [':', ' '] := rfl
  simp only [String.toList_append, colon, List.append_assoc, List.cons_append, List.nil_append]

theorem EndsLiteral.laterLiterals (texts : List String) {closing : List Char}
    (ends : EndsLiteral closing) : EndsLiteral (Value.laterLiterals texts ++ closing) := by
  cases texts with
  | nil => exact ends
  | cons text others =>
    rintro character ⟨⟩
    decide

mutual

/-- Reading goes on behind the literal of a value with this value. -/
theorem readValue_literal : (value : Value) → (∀ leaf ∈ value.leaves, leaf.IsTold) →
    (containers : List Container) → (rest : List Char) → EndsLiteral rest →
    readValue containers (value.literal.toList ++ rest) = readOn containers value rest
  | .list [], _, containers, rest, _ => readValue_emptyList
  | .list (first :: others), told, containers, rest, ends => by
    rw [leaves, leavesOf, List.forall_mem_append] at told
    have closing : EndsLiteral (']' :: rest) := by
      rintro character ⟨⟩
      decide
    have behind := closing.laterLiterals (literalItems others)
    have text : (literal (.list (first :: others))).toList ++ rest =
        '[' :: (first.literal.toList ++ (laterLiterals (literalItems others) ++ ']' :: rest)) := by
      have opening : "[".toList = ['['] := rfl
      have closing : "]".toList = [']'] := rfl
      rw [literal, literalItems, String.toList_append, String.toList_append,
        toList_intercalate_literals, opening, closing]
      simp only [List.append_assoc, List.cons_append, List.nil_append]
    -- The first item is read as a value, which a closing bracket is not.
    have item : ∀ later, first.literal.toList ++
        (laterLiterals (literalItems others) ++ ']' :: rest) ≠ ']' :: later := by
      intro later same
      have reads := readValue_literal first told.1 [] _ behind
      rw [same, readValue_closing, readOn_nil] at reads
      cases reads
    rw [text, readValue_list item, readValue_literal first told.1 _ _ behind]
    exact readOn_laterItems others told.2 containers [] first rest
  | .object [], _, containers, rest, _ => readValue_emptyObject
  | .object ((name, first) :: others), told, containers, rest, ends => by
    rw [leaves, leavesIn, List.forall_mem_append] at told
    have closing : EndsLiteral (' ' :: '\x7d' :: rest) := by
      rintro character ⟨⟩
      decide
    have behind := closing.laterLiterals (literalEntries others)
    have text : (literal (.object ((name, first) :: others))).toList ++ rest =
        '\x7b' :: ' ' :: ((Text.quoted name).toList ++ ':' :: ' ' :: (first.literal.toList ++
          (laterLiterals (literalEntries others) ++ ' ' :: '\x7d' :: rest))) := by
      have opening : "\x7b ".toList = ['\x7b', ' '] := rfl
      have closing : " \x7d".toList = [' ', '\x7d'] := rfl
      rw [← toList_entry_append, literal, List.isEmpty_cons, if_neg Bool.false_ne_true,
        literalEntries, String.toList_append, String.toList_append, toList_intercalate_literals,
        opening, closing]
      simp only [List.append_assoc, List.cons_append, List.nil_append]
    rw [text, readValue_object, readEntry_of_readName (readName_quoted name _),
      readValue_literal first told.1 _ _ behind]
    exact readOn_laterEntries others told.2 containers [] name first rest
  | .null, told, containers, rest, ends =>
    readValue_of_readLeaf (readLeaf_literal (told _ List.mem_cons_self) ends)
  | .bool _, told, containers, rest, ends =>
    readValue_of_readLeaf (readLeaf_literal (told _ List.mem_cons_self) ends)
  | .int _, told, containers, rest, ends =>
    readValue_of_readLeaf (readLeaf_literal (told _ List.mem_cons_self) ends)
  | .float _, told, containers, rest, ends =>
    readValue_of_readLeaf (readLeaf_literal (told _ List.mem_cons_self) ends)
  | .string _, told, containers, rest, ends =>
    readValue_of_readLeaf (readLeaf_literal (told _ List.mem_cons_self) ends)
  | .instant _, told, containers, rest, ends =>
    readValue_of_readLeaf (readLeaf_literal (told _ List.mem_cons_self) ends)
  | .record _, told, containers, rest, ends =>
    readValue_of_readLeaf (readLeaf_literal (told _ List.mem_cons_self) ends)

/-- Behind an item, the items behind it are read up to the end of the list. -/
theorem readOn_laterItems : (items : List Value) → (∀ leaf ∈ leavesOf items, leaf.IsTold) →
    (containers : List Container) → (done : List Value) → (item : Value) → (rest : List Char) →
    readOn (.list done :: containers) item (laterLiterals (literalItems items) ++ ']' :: rest) =
      readOn containers (.list (done ++ item :: items)) rest
  | [], _, containers, done, item, rest => readOn_closeList
  | next :: others, told, containers, done, item, rest => by
    rw [leavesOf, List.forall_mem_append] at told
    have closing : EndsLiteral (']' :: rest) := by
      rintro character ⟨⟩
      decide
    have behind := closing.laterLiterals (literalItems others)
    have text : laterLiterals (literalItems (next :: others)) ++ ']' :: rest =
        ',' :: ' ' :: (next.literal.toList ++
          (laterLiterals (literalItems others) ++ ']' :: rest)) := by
      rw [laterLiterals, literalItems, List.flatMap_cons, List.append_assoc]
      rfl
    rw [text, readOn_nextItem, readValue_literal next told.1 _ _ behind,
      readOn_laterItems others told.2, List.append_assoc]
    rfl

/-- Behind a value of an object, the entries behind it are read up to the end of the object. -/
theorem readOn_laterEntries : (entries : List (String × Value)) →
    (∀ leaf ∈ leavesIn entries, leaf.IsTold) → (containers : List Container) →
    (done : List (String × Value)) → (name : String) → (value : Value) → (rest : List Char) →
    readOn (.object done name :: containers) value
        (laterLiterals (literalEntries entries) ++ ' ' :: '\x7d' :: rest) =
      readOn containers (.object (done ++ (name, value) :: entries)) rest
  | [], _, containers, done, name, value, rest => readOn_closeObject
  | (next, item) :: others, told, containers, done, name, value, rest => by
    rw [leavesIn, List.forall_mem_append] at told
    have closing : EndsLiteral (' ' :: '\x7d' :: rest) := by
      rintro character ⟨⟩
      decide
    have behind := closing.laterLiterals (literalEntries others)
    have text : laterLiterals (literalEntries ((next, item) :: others)) ++ ' ' :: '\x7d' :: rest =
        ',' :: ' ' :: ((Text.quoted next).toList ++ ':' :: ' ' :: (item.literal.toList ++
          (laterLiterals (literalEntries others) ++ ' ' :: '\x7d' :: rest))) := by
      rw [← toList_entry_append, laterLiterals, literalEntries, List.flatMap_cons,
        List.append_assoc]
      rfl
    rw [text, readOn_nextEntry, readEntry_of_readName (readName_quoted next _),
      readValue_literal item told.1 _ _ behind, readOn_laterEntries others told.2,
      List.append_assoc]
    rfl

end

/-- A literal is read back up to what follows it. -/
theorem ofLiteral?_append {value : Value} (told : ∀ leaf ∈ value.leaves, leaf.IsTold)
    {rest : String} (ends : EndsLiteral rest.toList) :
    ofLiteral? (value.literal ++ rest) = some (value, rest) := by
  rw [ofLiteral?, String.toList_append, readValue_literal value told [] rest.toList ends,
    readOn_nil, Option.map_some, String.ofList_toList]

/-- Literals read back, by one reader. A value that is made up of nulls, truth values, integers,
strings and record ids of plainly named tables is read from its literal with all that follows it
left over, if a blank, a separator, a closing mark, the end of the statement or nothing follows. A
string is even read whatever follows, and always as this string. So the text of a literal tells
the value and where it ends. -/
theorem literal_readsBack :
    (∀ value : Value, (∀ leaf ∈ value.leaves, leaf.IsTold) →
      ∀ rest : String, EndsLiteral rest.toList →
        ofLiteral? (value.literal ++ rest) = some (value, rest)) ∧
    (∀ text rest : String,
      ofLiteral? ((Value.string text).literal ++ rest) = some (.string text, rest)) ∧
    ∀ first second : Value, (∀ leaf ∈ first.leaves, leaf.IsTold) →
      (∀ leaf ∈ second.leaves, leaf.IsTold) →
      ∀ rest other : String, EndsLiteral rest.toList → EndsLiteral other.toList →
        first.literal ++ rest = second.literal ++ other → first = second ∧ rest = other := by
  refine ⟨fun value told rest ends => ofLiteral?_append told ends, fun text rest => ?_, ?_⟩
  · rw [ofLiteral?, String.toList_append, literal,
      readValue_of_readLeaf (readLeaf_quoted text rest.toList), readOn_nil, Option.map_some,
      String.ofList_toList]
  · intro first second firstTold secondTold rest other ends otherEnds same
    have reads := ofLiteral?_append firstTold ends
    rw [same, ofLiteral?_append secondTold otherEnds, Option.some_inj, Prod.mk.injEq] at reads
    exact ⟨reads.1.symm, reads.2.symm⟩

/-- A value in which marks of literals stand where they do not count: in names, in strings that look
like other values or end in a backslash, and in the key of a record of a table called like a
word. -/
def markedValue : Value :=
  .object [("\x7d\": ", .list [.string "\\", .string "-1", .int (-1), .list [],
    .record ⟨"NONE", .text "⟩, \x7b"⟩, .object []]), ("", .null)]

/-- The literal of this value. -/
def markedText : String :=
  "\x7b \"\x7d\\\": \": [\"\\\\\", \"-1\", -1, [], NONE:⟨\\⟩, \x7b⟩, \x7b\x7d], \"\": NONE \x7d"

theorem markedValue_readsBack :
    (∀ leaf ∈ markedValue.leaves, leaf.IsTold) ∧ EndsLiteral ", \"]".toList ∧
    markedValue.literal = markedText ∧
    ofLiteral? (markedText ++ ", \"]") = some (markedValue, ", \"]") := by
  have told : ∀ leaf ∈ markedValue.leaves, leaf.IsTold := by decide
  have ends : EndsLiteral ", \"]".toList := by decide
  exact ⟨told, ends, rfl, literal_readsBack.1 markedValue told ", \"]" ends⟩

end Value

end DocQuery

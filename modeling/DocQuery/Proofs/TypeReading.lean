/-
This file reads type clauses back from the text of a definition.

A type is a keyword or a keyword with what it is about between angle brackets, so the reader follows
the words and marks of the text. The names of tables stand only behind `record<`, which is why a
table may be called like a type. What is read ends where the type ends: a keyword ends where its
word does, and everything else with the closing bracket.
-/

import DocQuery.Proofs.NameReading
import DocQuery.Statement.TypeClause

namespace DocQuery

/-! ### Reading -/

/-- The kind that a keyword names. -/
def Scalar.read? (word : List Char) : Option Scalar :=
  [Scalar.string, .float, .int, .bool, .datetime, .object].find? fun basic =>
    basic.keyword.toList = word

namespace TypeExpression

/-- Reads names of tables up to the closing bracket, each behind a separator. -/
def readTables : List Token → Option (List String × List Token)
  | .mark '>' :: rest => some ([], rest)
  | .mark ' ' :: .mark '|' :: .mark ' ' :: .word name :: rest =>
    match readTables rest with
    | some (names, rest) => some (String.ofList name :: names, rest)
    | none => none
  | _ => none

/-- Reads the type that a text starts with, and tells what follows it. -/
def read : List Token → Option (TypeExpression × List Token)
  | .word word :: rest =>
    match Scalar.read? word with
    | some basic => some (.scalar basic, rest)
    | none =>
      match rest with
      | .mark '<' :: .word first :: rest =>
        -- Decided before the inside is read as a type, since a table may be called like one.
        if word = "record".toList then
          match readTables rest with
          | some (others, rest) => some (.record (String.ofList first :: others), rest)
          | none => none
        else
          match read (.word first :: rest) with
          | some (element, .mark '>' :: rest) =>
            if word = "option".toList then some (.option element, rest)
            else if word = "array".toList then some (.array element, rest)
            else none
          | _ => none
      | _ => none
  | _ => none

end TypeExpression

/-- Reads the type clause that a text starts with, and tells what follows it. -/
def TypeClause.read? (text : String) : Option (TypeClause × List Token) :=
  match Token.scan text.toList with
  | .word word :: rest =>
    if word = "FLEXIBLE".toList then some (.flexible, rest)
    else if word = "TYPE".toList then
      match rest with
      | .mark ' ' :: rest => (TypeExpression.read rest).map fun parts => (.typed parts.1, parts.2)
      | _ => none
    else none
  | _ => none

/-! ### What is written reads back -/

theorem PlainName.scan_append {name : String} (plain : PlainName name) {rest : List Char}
    (ends : ∀ character ∈ rest.head?, RecordKey.continuesBare character = false) :
    Token.scan (name.toList ++ rest) = .word name.toList :: Token.scan rest :=
  Token.scan_word (Identifier.ne_nil ⟨name, plain⟩) plain.all_continuesBare ends

theorem Scalar.read?_keyword (basic : Scalar) : read? basic.keyword.toList = some basic := by
  cases basic <;> rfl

namespace TypeExpression

/-- Whether the tables of a type can be told from the text: each kind of record has one at least,
and their names are plain. -/
def Readable : TypeExpression → Prop
  | .scalar _ => True
  | .record tables => tables ≠ [] ∧ ∀ table ∈ tables, PlainName table
  | .option element => element.Readable
  | .array element => element.Readable

/-- The names of tables behind the first one, each behind a separator. -/
def laterTables (tables : List String) : List Char :=
  tables.flatMap fun table => ' ' :: '|' :: ' ' :: table.toList

theorem toList_intercalate_tables (first : String) (others : List String) :
    (String.intercalate " | " (first :: others)).toList = first.toList ++ laterTables others :=
  toList_intercalate " | " first others

/-- A list of tables goes on with a mark, be it a separator or the closing bracket. -/
theorem laterTables_ends (tables : List String) (rest : List Char) :
    ∀ character ∈ (laterTables tables ++ '>' :: rest).head?,
      RecordKey.continuesBare character = false := by
  cases tables with
  | nil =>
    rintro character ⟨⟩
    decide
  | cons table others =>
    rintro character ⟨⟩
    decide

theorem readTables_laterTables {tables : List String} (plain : ∀ table ∈ tables, PlainName table)
    (rest : List Char) :
    readTables (Token.scan (laterTables tables ++ '>' :: rest)) =
      some (tables, Token.scan rest) := by
  induction tables with
  | nil =>
    show readTables (Token.scan ('>' :: rest)) = _
    rw [Token.scan_mark (by decide), readTables]
  | cons table others inductionHypothesis =>
    have named := plain table List.mem_cons_self
    have text : laterTables (table :: others) ++ '>' :: rest =
        ' ' :: '|' :: ' ' :: (table.toList ++ (laterTables others ++ '>' :: rest)) := by
      rw [laterTables, List.flatMap_cons, List.append_assoc]
      rfl
    rw [text, Token.scan_mark (by decide), Token.scan_mark (by decide),
      Token.scan_mark (by decide),
      named.scan_append (laterTables_ends others rest), readTables,
      inductionHypothesis fun other member => plain other (List.mem_cons_of_mem _ member),
      String.ofList_toList]

/-- Only what begins with a word is read as a type. -/
theorem exists_word_of_read {tokens : List Token} {parts : TypeExpression × List Token}
    (reads : read tokens = some parts) : ∃ first rest, tokens = .word first :: rest := by
  unfold read at reads
  split at reads
  · exact ⟨_, _, rfl⟩
  · cases reads

/-- The keywords of the types that are about something, which name no kind of their own. -/
theorem scan_keyword {keyword : String} (plain : PlainName keyword) (rest : List Char) :
    Token.scan ((keyword ++ "<").toList ++ rest) =
      .word keyword.toList :: .mark '<' :: Token.scan rest := by
  have text : (keyword ++ "<").toList ++ rest = keyword.toList ++ '<' :: rest := by
    rw [String.toList_append, List.append_assoc]
    rfl
  have mark : RecordKey.continuesBare '<' = false := by decide
  rw [text, plain.scan_append (by rintro character ⟨⟩; exact mark), Token.scan_mark mark]

/-- A type that is about another one is read once that one is. -/
theorem read_around {keyword : String} {around : TypeExpression → TypeExpression}
    (known : keyword = "option" ∧ around = option ∨ keyword = "array" ∧ around = array)
    {element : TypeExpression} {rest : List Char}
    (reads : read (Token.scan (element.write.toList ++ '>' :: rest)) =
      some (element, Token.scan ('>' :: rest))) :
    read (Token.scan ((keyword ++ "<" ++ element.write ++ ">").toList ++ rest)) =
      some (around element, Token.scan rest) := by
  have text : (keyword ++ "<" ++ element.write ++ ">").toList ++ rest =
      (keyword ++ "<").toList ++ (element.write.toList ++ '>' :: rest) := by
    rw [String.toList_append, String.toList_append, List.append_assoc, List.append_assoc]
    rfl
  obtain ⟨first, others, inner⟩ := exists_word_of_read reads
  rw [inner, Token.scan_mark (by decide)] at reads
  rcases known with ⟨rfl, rfl⟩ | ⟨rfl, rfl⟩
  · rw [text, scan_keyword (by decide), inner, read]
    simp only [reads]
    rfl
  · rw [text, scan_keyword (by decide), inner, read]
    simp only [reads]
    rfl

/-- A type is read back from its text, which ends in front of anything that goes on no word. -/
theorem read_write_append {type : TypeExpression} (readable : type.Readable) {rest : List Char}
    (ends : ∀ character ∈ rest.head?, RecordKey.continuesBare character = false) :
    read (Token.scan (type.write.toList ++ rest)) = some (type, Token.scan rest) := by
  induction type generalizing rest with
  | scalar basic =>
    have plain : PlainName basic.keyword := by cases basic <;> decide
    rw [write, plain.scan_append ends]
    unfold read
    simp only [Scalar.read?_keyword]
  | record tables =>
    obtain ⟨nonempty, plain⟩ := readable
    obtain ⟨first, others, rfl⟩ := List.exists_cons_of_ne_nil nonempty
    have text : (write (.record (first :: others))).toList ++ rest =
        ("record" ++ "<").toList ++ (first.toList ++ (laterTables others ++ '>' :: rest)) := by
      rw [write, String.toList_append, String.toList_append, toList_intercalate_tables]
      simp only [List.append_assoc]
      rfl
    rw [List.forall_mem_cons] at plain
    rw [text, scan_keyword (by decide), plain.1.scan_append (laterTables_ends others rest), read]
    simp only [readTables_laterTables plain.2, String.ofList_toList]
    rfl
  | option element inductionHypothesis =>
    exact read_around (.inl ⟨rfl, rfl⟩)
      (inductionHypothesis readable (by rintro character ⟨⟩; decide))
  | array element inductionHypothesis =>
    exact read_around (.inr ⟨rfl, rfl⟩)
      (inductionHypothesis readable (by rintro character ⟨⟩; decide))

end TypeExpression

namespace TypeClause

/-- Whether the type of a clause, if it has one, can be told from the text. -/
def Readable : TypeClause → Prop
  | .flexible => True
  | .typed type => type.Readable

/-- A type clause is read back from its text, which ends in front of anything that goes on no
word. -/
theorem read?_write_append {clause : TypeClause} (readable : clause.Readable) {rest : String}
    (ends : ∀ character ∈ rest.toList.head?, RecordKey.continuesBare character = false) :
    read? (clause.write ++ rest) = some (clause, Token.scan rest.toList) := by
  cases clause with
  | flexible =>
    rw [read?, write, String.toList_append, PlainName.scan_append (by decide) ends]
    rfl
  | typed type =>
    have space : RecordKey.continuesBare ' ' = false := by decide
    have text : (write (.typed type) ++ rest).toList =
        "TYPE".toList ++ ' ' :: (type.write.toList ++ rest.toList) := by
      rw [write, String.toList_append, String.toList_append, List.append_assoc]
      rfl
    rw [read?, text, PlainName.scan_append (by decide) (by rintro character ⟨⟩; exact space),
      Token.scan_mark space]
    simp only [TypeExpression.read_write_append readable ends]
    rfl

end TypeClause

end DocQuery

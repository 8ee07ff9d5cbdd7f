/-
This file holds record ids: the table that a record lives in and its key there, with their
text form `table:key`.

A number key is written as the number. A text key is written bare if it is an ASCII identifier
and between `⟨` and `⟩` otherwise, with a backslash in front of every backslash and every `⟩`
inside. Reading splits at the first colon. A bracketed key is a text without its brackets and
escapes; any other key is a number if it reads as one of 64 bits, and else the text it is.
-/

import DocQuery.Text.Integer

namespace DocQuery

/-! ### Ids and keys -/

/-- The key of a record within its table. -/
inductive RecordKey where
  | number (value : Int64)
  | text (value : String)
  deriving DecidableEq

/-- The table that a record lives in, and its key there. -/
structure RecordId where
  table : String
  key : RecordKey
  deriving DecidableEq

namespace RecordKey

/-! ### Writing -/

/-- Whether a character may stand first in a bare key. -/
def startsBare (character : Char) : Bool :=
  character.isAlpha || character == '_'

/-- Whether a character may stand later in a bare key. -/
def continuesBare (character : Char) : Bool :=
  character.isAlphanum || character == '_'

/-- Whether a text key is an ASCII identifier, which needs no brackets. -/
def isBare : List Char → Bool
  | [] => false
  | first :: rest => startsBare first && rest.all continuesBare

/-- Puts a backslash in front of every backslash and every closing bracket. -/
def escape : List Char → List Char
  | [] => []
  | character :: rest =>
    if character = '\\' ∨ character = '⟩' then '\\' :: character :: escape rest
    else character :: escape rest

/-- The characters of a key. -/
def characters : RecordKey → List Char
  | .number value => (Text.writeInt64 value).toList
  | .text value =>
    if isBare value.toList then value.toList else '⟨' :: escape value.toList ++ ['⟩']

/-- The text of a key. -/
def write (key : RecordKey) : String :=
  String.ofList key.characters

/-! ### Reading -/

/-- Drops the backslashes that are not themselves behind one. -/
def unescape : List Char → List Char
  | [] => []
  | ['\\'] => []
  | '\\' :: character :: rest => character :: unescape rest
  | character :: rest => character :: unescape rest

/-- What stands between an opening bracket at the start and a closing one at the end. -/
def bracketed? : List Char → Option (List Char)
  | '⟨' :: rest => if rest.getLast? = some '⟩' then some rest.dropLast else none
  | _ => none

/-- The key that a text denotes. -/
def read (characters : List Char) : RecordKey :=
  match bracketed? characters with
  | some inner => .text (String.ofList (unescape inner))
  | none =>
    match Text.readInt64? characters with
    | some value => .number value
    | none => .text (String.ofList characters)

end RecordKey

namespace RecordId

/-- The text of an id: the table, a colon and the key. -/
def write (id : RecordId) : String :=
  id.table ++ ":" ++ id.key.write

/-- What stands before the first colon and what stands behind it. -/
def splitAtColon? : List Char → Option (List Char × List Char)
  | [] => none
  | ':' :: rest => some ([], rest)
  | character :: rest =>
    (splitAtColon? rest).map fun parts => (character :: parts.1, parts.2)

/-- The id that a text denotes, if it has a table and a key. -/
def read? (text : String) : Option RecordId :=
  match splitAtColon? text.toList with
  | none => none
  | some (table, key) =>
    if table = [] ∨ key = [] then none
    else some ⟨String.ofList table, RecordKey.read key⟩

end RecordId

end DocQuery

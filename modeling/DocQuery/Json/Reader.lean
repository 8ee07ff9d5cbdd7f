/-
This file reads JSON text.

The text is first cut into tokens: punctuation, strings without their escapes, and the other
scalars. The tokens are then taken one after the other while the containers that are still open
are kept in a stack, at most 127 of them. A name that occurs again in an object keeps its first
place and takes the later value. Exactly one value must stand in the text, between blanks at most.
-/

import DocQuery.Dictionary
import DocQuery.Json.Numeral

namespace DocQuery.Json

/-! ### Tokens -/

/-- A unit of JSON text. -/
inductive Token where
  | openArray
  | closeArray
  | openObject
  | closeObject
  | comma
  | colon
  | string (value : String)
  | scalar (value : Json)

/-- The value of a hexadecimal digit of either case. -/
def hexDigit? (character : Char) : Option Nat :=
  if character.isDigit then some (character.toNat - '0'.toNat)
  else if 'a' ≤ character ∧ character ≤ 'f' then some (character.toNat - 'a'.toNat + 10)
  else if 'A' ≤ character ∧ character ≤ 'F' then some (character.toNat - 'A'.toNat + 10)
  else none

/-- The number that four hexadecimal digits write. -/
def hexNumber? (first second third fourth : Char) : Option Nat := do
  let first ← hexDigit? first
  let second ← hexDigit? second
  let third ← hexDigit? third
  let fourth ← hexDigit? fourth
  some (((first * 16 + second) * 16 + third) * 16 + fourth)

/-- The character that stands for itself or a control behind a backslash. -/
def unescape? : Char → Option Char
  | '"' => some '"'
  | '\\' => some '\\'
  | '/' => some '/'
  | 'b' => some '\x08'
  | 'f' => some '\x0c'
  | 'n' => some '\n'
  | 'r' => some '\r'
  | 't' => some '\t'
  | _ => none

/-- The character of two 16-bit units, of which the second completes the first. -/
def pairedCharacter? (high low : Nat) : Option Char :=
  if 0xD800 ≤ high ∧ high ≤ 0xDBFF ∧ 0xDC00 ≤ low ∧ low ≤ 0xDFFF then
    some (Char.ofNat (0x10000 + (high - 0xD800) * 0x400 + (low - 0xDC00)))
  else none

/-- The character of one 16-bit unit, which must not be half of a pair. -/
def singleCharacter? (unit : Nat) : Option Char :=
  if 0xD800 ≤ unit ∧ unit ≤ 0xDFFF then none else some (Char.ofNat unit)

/-- Reads a string up to its closing quote; the characters read so far come latest first. -/
def readString? (done : List Char) : List Char → Option (String × List Char)
  | [] => none
  | '"' :: rest => some (String.ofList done.reverse, rest)
  | '\\' :: 'u' :: a :: b :: c :: d :: rest =>
    match hexNumber? a b c d with
    | none => none
    | some unit =>
      match singleCharacter? unit, rest with
      | some character, rest => readString? (character :: done) rest
      | none, '\\' :: 'u' :: e :: f :: g :: h :: rest =>
        match (hexNumber? e f g h).bind (pairedCharacter? unit) with
        | none => none
        | some character => readString? (character :: done) rest
      | none, _ => none
  | '\\' :: mark :: rest =>
    match unescape? mark with
    | none => none
    | some character => readString? (character :: done) rest
  | character :: rest =>
    if character.toNat < 32 ∨ character = '\\' then none
    else readString? (character :: done) rest

/-- Reads a number whose sign is already known, as a token. -/
def readNumber? (negative : Bool) (text : List Char) : Option (Token × List Char) := do
  let (numeral, rest) ← Numeral.read? negative text
  let value ← numeral.value?
  some (.scalar value, rest)

/-- Reads the token at the start of a text that does not start with a blank. -/
def nextToken? : List Char → Option (Token × List Char)
  | '[' :: rest => some (.openArray, rest)
  | ']' :: rest => some (.closeArray, rest)
  | '\x7b' :: rest => some (.openObject, rest)
  | '\x7d' :: rest => some (.closeObject, rest)
  | ',' :: rest => some (.comma, rest)
  | ':' :: rest => some (.colon, rest)
  | '"' :: rest => (readString? [] rest).map fun (value, rest) => (.string value, rest)
  | 'n' :: 'u' :: 'l' :: 'l' :: rest => some (.scalar .null, rest)
  | 't' :: 'r' :: 'u' :: 'e' :: rest => some (.scalar (.bool true), rest)
  | 'f' :: 'a' :: 'l' :: 's' :: 'e' :: rest => some (.scalar (.bool false), rest)
  | '-' :: rest => readNumber? true rest
  | text => readNumber? false text

/-- Whether a character may stand between tokens. -/
def isBlank (character : Char) : Bool :=
  character == ' ' || character == '\t' || character == '\n' || character == '\r'

/-- Cuts at most this many tokens off the text, which must end with them. -/
def tokensUpTo? : Nat → List Char → Option (List Token)
  | limit, text =>
    match text.dropWhile isBlank, limit with
    | [], _ => some []
    | _, 0 => none
    | text, limit + 1 => do
      let (token, rest) ← nextToken? text
      let tokens ← tokensUpTo? limit rest
      some (token :: tokens)

/-- The tokens of a text; none is empty, so there are no more than characters. -/
def tokens? (text : List Char) : Option (List Token) :=
  tokensUpTo? text.length text

/-! ### Trees -/

/-- A container that is still open. -/
inductive Frame where
  /-- An array with its items so far, latest first. -/
  | array (items : List Json)
  /-- An object with its entries so far. -/
  | object (entries : List (String × Json))
  /-- An object with its entries so far and the name whose value is due. -/
  | member (entries : List (String × Json)) (name : String)

/-- What may come next. -/
inductive Stage where
  | value
  | valueOrClose
  | name
  | nameOrClose
  | colon
  | commaOrClose
  | nothing (result : Json)

/-- How far a reading has come. -/
structure Reading where
  /-- The open containers, innermost first. -/
  stack : List Frame
  stage : Stage

/-- The greatest number of containers that may be open at once. -/
def depthLimit : Nat := 127

/-- Opens a container if the nesting allows one more. -/
def Reading.enter (reading : Reading) (frame : Frame) (stage : Stage) : Option Reading :=
  if reading.stack.length < depthLimit then some ⟨frame :: reading.stack, stage⟩ else none

/-- Hands a complete value to the innermost open container. -/
def completed (value : Json) : List Frame → Option Reading
  | [] => some ⟨[], .nothing value⟩
  | .array items :: rest => some ⟨.array (value :: items) :: rest, .commaOrClose⟩
  | .member entries name :: rest =>
    some ⟨.object (Entries.put name value entries) :: rest, .commaOrClose⟩
  | .object _ :: _ => none

/-- Takes a token where a value is due. -/
def Reading.takeValue (reading : Reading) : Token → Option Reading
  | .openArray => reading.enter (.array []) .valueOrClose
  | .openObject => reading.enter (.object []) .nameOrClose
  | .string value => completed (.string value) reading.stack
  | .scalar value => completed value reading.stack
  | _ => none

/-- Takes a token where a name is due. -/
def Reading.takeName (reading : Reading) : Token → Option Reading
  | .string name =>
    match reading.stack with
    | .object entries :: rest => some ⟨.member entries name :: rest, .colon⟩
    | _ => none
  | _ => none

/-- Closes the innermost container with a token that fits it. -/
def Reading.close (reading : Reading) : Token → Option Reading
  | .closeArray =>
    match reading.stack with
    | .array items :: rest => completed (.array items.reverse) rest
    | _ => none
  | .closeObject =>
    match reading.stack with
    | .object entries :: rest => completed (.object entries) rest
    | _ => none
  | _ => none

/-- Takes one token. -/
def Reading.step (reading : Reading) (token : Token) : Option Reading :=
  match reading.stage, token with
  | .value, token => reading.takeValue token
  | .valueOrClose, .closeArray => reading.close .closeArray
  | .valueOrClose, token => reading.takeValue token
  | .name, token => reading.takeName token
  | .nameOrClose, .closeObject => reading.close .closeObject
  | .nameOrClose, token => reading.takeName token
  | .colon, .colon => some { reading with stage := .value }
  | .commaOrClose, .comma =>
    match reading.stack with
    | .array _ :: _ => some { reading with stage := .value }
    | _ => some { reading with stage := .name }
  | .commaOrClose, token => reading.close token
  | _, _ => none

/-- The tree that a text writes. -/
def read? (text : String) : Option Json := do
  let tokens ← tokens? text.toList
  let reading ← tokens.foldlM Reading.step ⟨[], .value⟩
  match reading.stage with
  | .nothing value => some value
  | _ => none

end DocQuery.Json

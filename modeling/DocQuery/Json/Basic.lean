/-
This file holds JSON trees and their compact text.

Objects keep the order of their names. Numbers are either integers or doubles, which are
written differently: a double always shows a fraction digit or an exponent. The text has no
blanks, and strings escape only quotes, backslashes and control characters.
-/

import DocQuery.Double.Shortest
import DocQuery.Text.Integer

namespace DocQuery

/-- A JSON tree. -/
inductive Json where
  | null
  | bool (value : Bool)
  | integer (value : Int)
  | float (value : Double)
  | string (value : String)
  | array (items : List Json)
  | object (entries : List (String × Json))

namespace Json

/-! ### Text -/

/-- Doubles are positional from 10^-5 up to below 10^16 and have a signed exponent elsewhere. -/
def floatStyle : Double.DecimalStyle where
  leastPlain := -5
  greatestPlain := 15
  plusSign := true
  tie := .toEven

/-- The characters by which a character of a string is written. -/
def escape (character : Char) : List Char :=
  if character = '"' then ['\\', '"']
  else if character = '\\' then ['\\', '\\']
  else if character = '\n' then ['\\', 'n']
  else if character = '\r' then ['\\', 'r']
  else if character = '\t' then ['\\', 't']
  else if character = '\x08' then ['\\', 'b']
  else if character = '\x0c' then ['\\', 'f']
  else if character.toNat < 32 then
    ['\\', 'u', '0', '0', Nat.digitChar (character.toNat / 16),
      Nat.digitChar (character.toNat % 16)]
  else [character]

/-- A string between quotes. -/
def writeString (text : String) : String :=
  "\"" ++ String.ofList (text.toList.flatMap escape) ++ "\""

mutual

/-- The compact text of a tree. -/
def write : Json → String
  | .null => "null"
  | .bool value => if value then "true" else "false"
  | .integer value => Text.writeInt value
  | .float value => if value.isFinite then value.write floatStyle else "null"
  | .string value => writeString value
  | .array items => "[" ++ String.intercalate "," (writeItems items) ++ "]"
  | .object entries => "\x7b" ++ String.intercalate "," (writeEntries entries) ++ "\x7d"

/-- The texts of the items of an array. -/
def writeItems : List Json → List String
  | [] => []
  | item :: rest => item.write :: writeItems rest

/-- The texts of the entries of an object. -/
def writeEntries : List (String × Json) → List String
  | [] => []
  | (name, item) :: rest => (writeString name ++ ":" ++ item.write) :: writeEntries rest

end

end Json

end DocQuery

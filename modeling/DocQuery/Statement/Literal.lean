/-
This file writes values into the text of a statement, which is done for default values only.

Numbers and truth values stand bare, since they would be strings between quotes. A double shows
a fraction digit or an exponent, so that it stays a double; one that is not finite, like null,
is written as the value that is absent. Lists stand in brackets and objects in braces, with blanks
inside the braces of an object that is not empty.
-/

import DocQuery.Double.Shortest
import DocQuery.Text.Quoted
import DocQuery.Value.Basic

namespace DocQuery.Value

/-- Doubles are positional from 10^-4 up to below 10^16, and elsewhere have an exponent that is
signed only if it is negative; of equally near decimals the greater one is taken. -/
def literalStyle : Double.DecimalStyle where
  leastPlain := -4
  greatestPlain := 15
  plusSign := false
  tie := .up

mutual

/-- The literal of a value. -/
def literal : Value → String
  | .null => "NONE"
  | .bool value => if value then "true" else "false"
  | .int value => Text.writeInt64 value
  | .float value => if value.isFinite then value.write literalStyle else "NONE"
  | .string value => Text.quoted value
  | .instant value => "d" ++ Text.quoted value.write
  | .record id => id.write
  | .list items => "[" ++ String.intercalate ", " (literalItems items) ++ "]"
  | .object entries =>
    if entries.isEmpty then "\x7b\x7d"
    else "\x7b " ++ String.intercalate ", " (literalEntries entries) ++ " \x7d"

/-- The literals of the items of a list. -/
def literalItems : List Value → List String
  | [] => []
  | item :: rest => item.literal :: literalItems rest

/-- The literals of the entries of an object, each behind its quoted name. -/
def literalEntries : List (String × Value) → List String
  | [] => []
  | (name, item) :: rest => (Text.quoted name ++ ": " ++ item.literal) :: literalEntries rest

end

end DocQuery.Value

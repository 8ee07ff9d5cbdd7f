/-
This file turns values into JSON trees and back.

A tree has no sort of its own for instants and record ids, which become their texts, and none
for an infinity or a not-a-number, which become null. In the other direction an integer that
does not fit 64 bits becomes the nearest double.
-/

import DocQuery.Json.Basic
import DocQuery.Value.Basic

namespace DocQuery

namespace Value

mutual

/-- The tree of a value. -/
def toJson : Value → Json
  | .null => .null
  | .bool value => .bool value
  | .int value => .integer value.toInt
  | .float value => if value.isFinite then .float value else .null
  | .string value => .string value
  | .instant value => .string value.write
  | .record id => .string id.write
  | .list items => .array (itemsToJson items)
  | .object entries => .object (entriesToJson entries)

/-- The trees of the items of a list. -/
def itemsToJson : List Value → List Json
  | [] => []
  | item :: rest => item.toJson :: itemsToJson rest

/-- The trees of the entries of an object. -/
def entriesToJson : List (String × Value) → List (String × Json)
  | [] => []
  | (name, item) :: rest => (name, item.toJson) :: entriesToJson rest

end

mutual

/-- The value of a tree. -/
def ofJson : Json → Value
  | .null => .null
  | .bool value => .bool value
  | .integer value =>
    if Text.fitsInt64 value then .int (Int64.ofInt value) else .float (Double.ofInt value)
  | .float value => .float value
  | .string value => .string value
  | .array items => .list (itemsOfJson items)
  | .object entries => .object (entriesOfJson entries)

/-- The values of the items of an array. -/
def itemsOfJson : List Json → List Value
  | [] => []
  | item :: rest => ofJson item :: itemsOfJson rest

/-- The values of the entries of an object. -/
def entriesOfJson : List (String × Json) → List (String × Value)
  | [] => []
  | (name, item) :: rest => (name, ofJson item) :: entriesOfJson rest

end

end Value

end DocQuery

/-
This file holds the values that queries carry and backends return.

Equality of values is numeric on doubles, so a not-a-number is not equal to itself, and it
ignores the order of the entries of an object: each entry of one object takes an equal entry of
its name from the other, and none remains. An integer is never equal to a double.
-/

import DocQuery.Dictionary
import DocQuery.Double.Rounding
import DocQuery.Instant.Basic
import DocQuery.RecordId

namespace DocQuery

/-- A value of a field. -/
inductive Value where
  | null
  | bool (value : Bool)
  | int (value : Int64)
  | float (value : Double)
  | string (value : String)
  | instant (value : Instant)
  | record (id : RecordId)
  | list (items : List Value)
  /-- Entries in the order in which their names were first given. -/
  | object (entries : List (String × Value))

instance : Inhabited Value := ⟨.null⟩

namespace Value

/-- The object of a list of entries: a repeated name keeps its place and its last value. -/
def objectOfList (entries : List (String × Value)) : Value :=
  .object (Entries.putAll entries)

/-- The name of the sort of a value, as messages give it. -/
def typeName : Value → String
  | .null => "Null"
  | .bool _ => "Bool"
  | .int _ => "I64"
  | .float _ => "F64"
  | .string _ => "String"
  | .instant _ => "Datetime"
  | .record _ => "Record"
  | .list _ => "List"
  | .object _ => "Object"

/-! ### Equality -/

mutual

/-- Equality of values. -/
def equal : Value → Value → Bool
  | .null, .null => true
  | .bool left, .bool right => left == right
  | .int left, .int right => left == right
  | .float left, .float right => left.equal right
  | .string left, .string right => left == right
  | .instant left, .instant right => left == right
  | .record left, .record right => left == right
  | .list left, .list right => equalItems left right
  | .object left, .object right => agreeEntries left right
  | _, _ => false

/-- Equality of lists, item by item. -/
def equalItems : List Value → List Value → Bool
  | [], [] => true
  | left :: lefts, right :: rights => left.equal right && equalItems lefts rights
  | _, _ => false

/-- Each entry on the left takes an equal entry of its name from the right, and none remains. -/
def agreeEntries : List (String × Value) → List (String × Value) → Bool
  | [], right => right.isEmpty
  | (name, item) :: rest, right =>
    match Entries.take? name right with
    | none => false
    | some (other, remaining) => item.equal other && agreeEntries rest remaining

end

/-- Entries of an object agree as the entries of a dictionary of values do. -/
theorem agreeEntries_eq (left right : List (String × Value)) :
    agreeEntries left right = Entries.agree equal left right := by
  induction left generalizing right with
  | nil => rw [agreeEntries, Entries.agree]
  | cons entry rest inductionHypothesis =>
    rw [agreeEntries, Entries.agree]
    cases Entries.take? entry.1 right with
    | none => rfl
    | some taken => simp only [inductionHypothesis]

/-! ### Parts of a value -/

/-- Whether the value is null. -/
def isNull : Value → Bool
  | .null => true
  | _ => false

/-- Whether the value is a list. -/
def isList : Value → Bool
  | .list _ => true
  | _ => false

/-- The truth value, of a value that is one. -/
def asBool? : Value → Option Bool
  | .bool value => some value
  | _ => none

/-- The integer, of a value that is one. -/
def asInt? : Value → Option Int64
  | .int value => some value
  | _ => none

/-- The number of a value that is a double or an integer, as the nearest double. -/
def asFloat? : Value → Option Double
  | .float value => some value
  | .int value => some (Double.ofInt value.toInt)
  | _ => none

/-- The text, of a value that is one. -/
def asString? : Value → Option String
  | .string value => some value
  | _ => none

/-- The items, of a value that is a list. -/
def asList? : Value → Option (List Value)
  | .list items => some items
  | _ => none

/-- The entries, of a value that is an object. -/
def asObject? : Value → Option (List (String × Value))
  | .object entries => some entries
  | _ => none

/-- The record id, of a value that is one. -/
def asRecord? : Value → Option RecordId
  | .record id => some id
  | _ => none

/-- The value under a name, of a value that is an object. -/
def get? (value : Value) (name : String) : Option Value :=
  value.asObject?.bind (Entries.find? name)

end Value

end DocQuery

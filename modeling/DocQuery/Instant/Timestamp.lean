/-
This file recognises the texts that denote a point in time with an offset.

Such a text is a date of the calendar, a `T`, `t` or one space, a time of day, optionally a
point and digits, and an offset: `Z`, `z`, or a sign, two digits of hours below 24, a colon and
two digits of minutes below 60. The second may be 60 at any minute, and the minus sign of the
offset may be the hyphen or the mathematical one. Every number has its full width and nothing
may stand before or behind.
-/

import DocQuery.Instant.Calendar

namespace DocQuery.Timestamp

/-! ### Steps of a reading -/

/-- Reads a number of exactly this many ASCII digits. -/
def number? (width : Nat) (text : List Char) : Option (Nat × List Char) :=
  let digits := text.take width
  if digits.length = width ∧ digits.all Char.isDigit then
    some (Nat.ofDigitChars 10 digits 0, text.drop width)
  else none

/-- Reads one character out of a list of alternatives. -/
def oneOf? (alternatives : List Char) : List Char → Option (List Char)
  | [] => none
  | first :: rest => if alternatives.contains first then some rest else none

/-! ### The three parts -/

/-- Reads a date that exists. -/
def date? (text : List Char) : Option (List Char) := do
  let (year, text) ← number? 4 text
  let text ← oneOf? ['-'] text
  let (month, text) ← number? 2 text
  let text ← oneOf? ['-'] text
  let (day, text) ← number? 2 text
  if 1 ≤ day ∧ day ≤ Calendar.monthLength year month then some text else none

/-- Reads a point and at least one digit if a point is next. -/
def fraction? : List Char → Option (List Char)
  | '.' :: rest =>
    if (rest.takeWhile Char.isDigit).isEmpty then none else some (rest.dropWhile Char.isDigit)
  | text => some text

/-- Reads a time of day, whose second may be 60. -/
def time? (text : List Char) : Option (List Char) := do
  let (hour, text) ← number? 2 text
  let text ← oneOf? [':'] text
  let (minute, text) ← number? 2 text
  let text ← oneOf? [':'] text
  let (second, text) ← number? 2 text
  if hour < 24 ∧ minute < 60 ∧ second ≤ 60 then fraction? text else none

/-- Reads an offset from universal time. -/
def offset? (text : List Char) : Option (List Char) :=
  match oneOf? ['Z', 'z'] text with
  | some rest => some rest
  | none => do
    let text ← oneOf? ['+', '-', '\u2212'] text
    let (hours, text) ← number? 2 text
    let text ← oneOf? [':'] text
    let (minutes, text) ← number? 2 text
    if hours < 24 ∧ minutes < 60 then some text else none

/-- What remains behind a point in time with an offset. -/
def remainder? (text : List Char) : Option (List Char) := do
  let text ← date? text
  let text ← oneOf? ['T', 't', ' '] text
  let text ← time? text
  offset? text

end DocQuery.Timestamp

namespace DocQuery

/-- Whether the text, as a whole, denotes a point in time with an offset. -/
def isTimestamp (text : String) : Bool :=
  Timestamp.remainder? text.toList == some []

end DocQuery

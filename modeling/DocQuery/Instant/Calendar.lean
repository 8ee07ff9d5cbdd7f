/-
This file holds the proleptic Gregorian calendar: how long months are, and which date a day
counted from the first of January 1970 is.

Years are taken to start in March, so that the day a leap year adds is the last of its year. A
day number is then split into whole cycles of 400 years, of a century, of four years and of
one year; the last cycle of each kind may be a day longer than the others, which is why its
number is capped. What remains is a day of the year, and the months are counted off in order.
-/

namespace DocQuery

/-- A day of the calendar. -/
structure Date where
  year : Int
  /-- January is 1. -/
  month : Nat
  /-- The first day of a month is 1. -/
  day : Nat
  deriving DecidableEq, Repr

namespace Calendar

/-- Whether the year has a 29th of February. -/
def isLeap (year : Int) : Bool :=
  year % 4 = 0 && (year % 100 != 0 || year % 400 = 0)

/-- The number of days of a month, none for a month that does not exist. -/
def monthLength (year : Int) : Nat → Nat
  | 1 | 3 | 5 | 7 | 8 | 10 | 12 => 31
  | 4 | 6 | 9 | 11 => 30
  | 2 => if isLeap year then 29 else 28
  | _ => 0

/-- The lengths of the months from March on; the last one is February at its longest. -/
def monthsFromMarch : List Nat :=
  [31, 30, 31, 30, 31, 31, 30, 31, 30, 31, 31, 29]

/-- The position of the month that holds a day, and the day counted from its first. -/
def splitDay : List Nat → Nat → Nat × Nat
  | [], day => (0, day)
  | length :: rest, day =>
    if day < length then (0, day)
    else
      let later := splitDay rest (day - length)
      (later.1 + 1, later.2)

/-- A year that starts in March, and a day counted from its first. -/
structure MarchDay where
  year : Int
  day : Nat

/-- The year and the day of it, of a day counted from the first of March of the year 0. -/
def marchDay (days : Int) : MarchDay :=
  let inEra := (days % 146097).toNat
  let century := min (inEra / 36524) 3
  let inCentury := inEra - 36524 * century
  let quadrennium := inCentury / 1461
  let inQuadrennium := inCentury % 1461
  let single := min (inQuadrennium / 365) 3
  { year := 400 * (days / 146097) + 100 * century + 4 * quadrennium + single
    day := inQuadrennium - 365 * single }

/-- The date of a day counted from the first of January 1970. -/
def dateOfDay (days : Int) : Date :=
  let march := marchDay (days + 719468)
  let split := splitDay monthsFromMarch march.day
  if split.1 < 10 then ⟨march.year, split.1 + 3, split.2 + 1⟩
  else ⟨march.year + 1, split.1 - 9, split.2 + 1⟩

end Calendar

end DocQuery

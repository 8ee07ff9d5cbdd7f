/-
This file holds points in time and their text.

An instant is a number of seconds from the start of 1970 and a number of nanoseconds into that
second; a leap second is the second before it with nanoseconds beyond 10^9. The text has the
date, the time of day and the offset `+00:00`. The fraction has as many groups of three digits
as it needs, and none if the second is whole. A year that four digits cannot hold has a sign.
-/

import DocQuery.Instant.Calendar

namespace DocQuery

/-- A point in time, as seconds from the start of 1970 and nanoseconds into the second. -/
structure Instant where
  seconds : Int
  /-- From 10^9 on the instant lies in the leap second after the counted one. -/
  nanoseconds : Fin 2000000000
  deriving DecidableEq

namespace Instant

/-! ### The parts of an instant -/

/-- The date of the instant. -/
def date (instant : Instant) : Date :=
  Calendar.dateOfDay (instant.seconds / 86400)

/-- The seconds since midnight. -/
def secondOfDay (instant : Instant) : Nat :=
  (instant.seconds % 86400).toNat

/-- Whether the instant lies in a leap second. -/
def isLeapSecond (instant : Instant) : Bool :=
  1000000000 ≤ instant.nanoseconds.val

/-- The hour of the day. -/
def hour (instant : Instant) : Nat :=
  instant.secondOfDay / 3600

/-- The minute of the hour. -/
def minute (instant : Instant) : Nat :=
  instant.secondOfDay / 60 % 60

/-- The second of the minute, 60 in a leap second. -/
def second (instant : Instant) : Nat :=
  instant.secondOfDay % 60 + if instant.isLeapSecond then 1 else 0

/-- The nanoseconds into the second that is written. -/
def subsecond (instant : Instant) : Nat :=
  instant.nanoseconds.val % 1000000000

/-! ### Text -/

/-- The digits of a number with zeros in front up to a width. -/
def padded (width number : Nat) : List Char :=
  (Nat.toDigits 10 number).leftpad width '0'

/-- Four digits of a year, with a sign if the year is before 0 or needs more. -/
def yearText (year : Int) : List Char :=
  if 0 ≤ year ∧ year ≤ 9999 then padded 4 year.toNat
  else (if year < 0 then '-' else '+') :: padded 4 year.natAbs

/-- A point and three, six or nine digits, or nothing. -/
def fractionText (nanoseconds : Nat) : List Char :=
  if nanoseconds = 0 then []
  else if nanoseconds % 1000000 = 0 then '.' :: padded 3 (nanoseconds / 1000000)
  else if nanoseconds % 1000 = 0 then '.' :: padded 6 (nanoseconds / 1000)
  else '.' :: padded 9 nanoseconds

/-- The characters of an instant: date, time of day and the offset of universal time. -/
def characters (instant : Instant) : List Char :=
  yearText instant.date.year ++ '-' :: padded 2 instant.date.month ++
    '-' :: padded 2 instant.date.day ++ 'T' :: padded 2 instant.hour ++
    ':' :: padded 2 instant.minute ++ ':' :: padded 2 instant.second ++
    fractionText instant.subsecond ++ ['+', '0', '0', ':', '0', '0']

/-- The text of an instant. -/
def write (instant : Instant) : String :=
  String.ofList instant.characters

end Instant

end DocQuery

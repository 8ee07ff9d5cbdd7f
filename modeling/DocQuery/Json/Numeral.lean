/-
This file reads the numbers of JSON text.

A number is an integer if it has neither a fraction nor an exponent, a sign of minus only if it
is not zero, and fits the 64 bits that its sign leaves it. Every other number is a double, and
not always the nearest one: as many leading digits as fit 64 bits are gathered into an integer,
that integer is rounded to a double, and the double is multiplied or divided by a rounded power
of ten. A number whose double would be infinite is refused.
-/

import DocQuery.Double.Rounding
import DocQuery.Json.Basic

namespace DocQuery.Json

/-! ### The grammar of a number -/

/-- The parts of a number as they are written, digits by their values. -/
structure Numeral where
  negative : Bool
  whole : List Nat
  /-- The digits behind a point, if there is one. -/
  fraction : Option (List Nat)
  /-- The power of ten behind an exponent mark, if there is one. -/
  exponent : Option Int

/-- Splits off the digits at the start. -/
def splitDigits (text : List Char) : List Nat × List Char :=
  ((text.takeWhile Char.isDigit).map fun digit => digit.toNat - '0'.toNat,
    text.dropWhile Char.isDigit)

/-- The natural with these decimal digits. -/
def ofDigits (digits : List Nat) : Nat :=
  digits.foldl (fun value digit => 10 * value + digit) 0

/-- Reads a point and the digits behind it, of which there must be one. -/
def readFraction? : List Char → Option (Option (List Nat) × List Char)
  | '.' :: text =>
    let (digits, rest) := splitDigits text
    if digits = [] then none else some (some digits, rest)
  | text => some (none, text)

/-- Reads the sign and the digits of an exponent, of which there must be one. -/
def readPower? (text : List Char) : Option (Int × List Char) :=
  let (negative, text) := match text with
    | '-' :: rest => (true, rest)
    | '+' :: rest => (false, rest)
    | other => (false, other)
  let (digits, rest) := splitDigits text
  if digits = [] then none
  else some (if negative then -(ofDigits digits : Int) else (ofDigits digits : Int), rest)

/-- Reads an exponent mark and the power behind it. -/
def readExponent? : List Char → Option (Option Int × List Char)
  | 'e' :: text => (readPower? text).map fun (power, rest) => (some power, rest)
  | 'E' :: text => (readPower? text).map fun (power, rest) => (some power, rest)
  | text => some (none, text)

/-- Reads a number whose sign is already known; a zero may lead only if it is alone. -/
def Numeral.read? (negative : Bool) (text : List Char) : Option (Numeral × List Char) := do
  let (whole, text) := splitDigits text
  if whole = [] ∨ (whole.head? = some 0 ∧ 1 < whole.length) then none
  else
    let (fraction, text) ← readFraction? text
    let (exponent, text) ← readExponent? text
    some (⟨negative, whole, fraction, exponent⟩, text)

/-! ### The value of a number -/

/-- Appends digits to a natural as long as 64 bits hold it, and counts those left over. -/
def absorb : Nat → List Nat → Nat × Nat
  | value, [] => (value, 0)
  | value, digit :: rest =>
    if 10 * value + digit ≤ 18446744073709551615 then absorb (10 * value + digit) rest
    else (value, rest.length + 1)

/-- Divides by a power of ten in steps whose powers are themselves finite. -/
def scaleDown (number : Double) (power : Nat) : Double :=
  if power ≤ 308 then number.dividedBy (Double.powerOfTen power)
  else if number.isZero then number
  else scaleDown (number.dividedBy (Double.powerOfTen 308)) (power - 308)
termination_by power

/-- Scales by a power of ten, unless the result would be infinite. -/
def scaleByTen? (number : Double) (power : Int) : Option Double :=
  if power < 0 then some (scaleDown number power.natAbs)
  else if 308 < power then if number.isZero then some number else none
  else
    let scaled := number.multipliedBy (Double.powerOfTen power.toNat)
    if scaled.isFinite then some scaled else none

/-- A double with a sign, as a tree. -/
def signedFloat (negative : Bool) (number : Double) : Json :=
  .float (if negative then number.negated else number)

/-- The tree of a number, unless it is too large for a double. -/
def Numeral.value? (numeral : Numeral) : Option Json :=
  let (whole, dropped) := absorb 0 numeral.whole
  if numeral.fraction = none ∧ numeral.exponent = none ∧ dropped = 0 then
    if !numeral.negative then some (.integer whole)
    else if 0 < whole ∧ whole ≤ 9223372036854775808 then some (.integer (-(whole : Int)))
    else some (signedFloat true (Double.ofInt whole))
  else
    let fraction := numeral.fraction.getD []
    let (significand, ignored) := absorb whole fraction
    let power := numeral.exponent.getD 0 + dropped - (fraction.length - ignored : Nat)
    (scaleByTen? (Double.ofInt significand) power).map (signedFloat numeral.negative)

end DocQuery.Json

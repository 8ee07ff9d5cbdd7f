/-
This file writes a finite double with the fewest decimal digits that identify it.

The reals that round to a number form an interval: from halfway to the neighbour below to
halfway to the neighbour above, ends included when the significand is even. `shortest` takes
the coarsest decimal grid with a point in that interval, and of two points the nearer one.
How the digits are laid out is not decided here but by a `DecimalStyle`, of which each written
format has its own.
-/

import DocQuery.Double.Basic

namespace DocQuery.Double

/-! ### The interval of a number and the decimal grids -/

/-- A natural times a power of ten. -/
structure Decimal where
  /-- The digits, as one natural. -/
  digits : Nat
  /-- The power of ten that scales them. -/
  exponent : Int
  deriving DecidableEq, Repr

/-- Which of two decimals is taken when they are equally near. -/
inductive Tie where
  | toEven
  | up
  deriving DecidableEq, Repr

/-- A quarter of the spacing above the number is the unit in which the interval is measured;
the lower end is nearer where the spacing halves. -/
def lowerEnd (number : Double) : Nat :=
  if number.fraction = 0 ∧ 1 < number.exponentField then 4 * number.significand - 1
  else 4 * number.significand - 2

/-- The upper end of the interval, in quarters of the spacing. -/
def upperEnd (number : Double) : Nat :=
  4 * number.significand + 2

/-- The factor that turns steps of a decimal grid into a common measure. -/
def gridFactor (number : Double) (exponent : Int) : Nat :=
  Nat.pow 10 exponent.toNat * Nat.pow 2 (2 - number.scale).toNat

/-- The factor that turns quarters of the spacing into the same measure. -/
def quarterFactor (number : Double) (exponent : Int) : Nat :=
  Nat.pow 10 (-exponent).toNat * Nat.pow 2 (number.scale - 2).toNat

/-- Whether a point of a decimal grid rounds to the number. -/
def identifies (number : Double) (exponent : Int) (point : Nat) : Bool :=
  let measure := point * number.gridFactor exponent
  let lower := number.lowerEnd * number.quarterFactor exponent
  let upper := number.upperEnd * number.quarterFactor exponent
  if number.significand % 2 = 0 then lower ≤ measure && measure ≤ upper
  else lower < measure && measure < upper

/-- The point of a decimal grid that rounds to the number and is nearest to it. -/
def gridPoint? (tie : Tie) (number : Double) (exponent : Int) : Option Nat :=
  let measure := 4 * number.significand * number.quarterFactor exponent
  let below := measure / number.gridFactor exponent
  match number.identifies exponent below, number.identifies exponent (below + 1) with
  | false, false => none
  | true, false => some below
  | false, true => some (below + 1)
  | true, true =>
    let middle := (2 * below + 1) * number.gridFactor exponent
    if 2 * measure < middle then some below
    else if middle < 2 * measure then some (below + 1)
    else match tie with
      | .up => some (below + 1)
      | .toEven => if below % 2 = 0 then some below else some (below + 1)

/-- Tries ever finer grids, starting at this one. -/
def coarsestPoint (tie : Tie) (number : Double) : Nat → Int → Decimal
  | 0, exponent => ⟨0, exponent⟩
  | tries + 1, exponent =>
    match number.gridPoint? tie exponent with
    | some point => ⟨point, exponent⟩
    | none => coarsestPoint tie number tries (exponent - 1)

/-- The decimal with the fewest digits that rounds to a positive finite number. The grids run
from the one above the largest number to one on which seventeen digits reach the least. -/
def shortest (tie : Tie) (number : Double) : Decimal :=
  coarsestPoint tie number 660 309

/-! ### Layout -/

/-- The decisions of a format that writes numbers with the fewest digits. -/
structure DecimalStyle where
  /-- The least exponent of a leading digit that is written positionally. -/
  leastPlain : Int
  /-- The greatest exponent of a leading digit that is written positionally. -/
  greatestPlain : Int
  /-- Whether an exponent that is not negative has a plus sign. -/
  plusSign : Bool
  /-- What becomes of equally near decimals. -/
  tie : Tie

/-- The digits with the point in its place, and always a digit on either side of it. -/
def layoutPlain (digits : List Char) (exponent : Int) : List Char :=
  let leading := exponent + digits.length
  if 0 ≤ exponent then digits ++ List.replicate exponent.toNat '0' ++ ['.', '0']
  else if 0 < leading then digits.take leading.toNat ++ '.' :: digits.drop leading.toNat
  else '0' :: '.' :: List.replicate (-leading).toNat '0' ++ digits

/-- One digit, the others behind a point if there are any, and the exponent. -/
def layoutScientific (plusSign : Bool) (digits : List Char) (exponent : Int) : List Char :=
  let mantissa := match digits with
    | first :: second :: rest => first :: '.' :: second :: rest
    | single => single
  let sign := if exponent < 0 then ['-'] else if plusSign then ['+'] else []
  mantissa ++ 'e' :: sign ++ Nat.toDigits 10 exponent.natAbs

/-- The characters of a decimal in a style. -/
def Decimal.layout (style : DecimalStyle) (decimal : Decimal) : List Char :=
  let digits := Nat.toDigits 10 decimal.digits
  let leading := decimal.exponent + digits.length - 1
  if style.leastPlain ≤ leading ∧ leading ≤ style.greatestPlain then
    layoutPlain digits decimal.exponent
  else layoutScientific style.plusSign digits leading

/-- The text of a finite number in a style. -/
def write (style : DecimalStyle) (number : Double) : String :=
  let magnitude :=
    if number.isZero then ['0', '.', '0'] else (number.shortest style.tie).layout style
  String.ofList (if number.isNegative then '-' :: magnitude else magnitude)

end DocQuery.Double

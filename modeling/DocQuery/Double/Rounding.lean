/-
This file rounds exact quotients to double precision.

The nearest number is taken and a quotient halfway between two goes to the one with the even
significand. Below the normal range the spacing stays that of the least positive number, and
a quotient whose rounded value exceeds the largest finite number becomes an infinity.
Products and quotients of finite numbers are the rounded exact ones.
-/

import DocQuery.Double.Basic

namespace DocQuery.Double

/-! ### Rounding a quotient of naturals -/

/-- The natural nearest to a quotient, the even one of two that are equally near. -/
def roundHalfEven (numerator denominator : Nat) : Nat :=
  let whole := numerator / denominator
  let twice := 2 * (numerator % denominator)
  if denominator < twice ∨ (twice = denominator ∧ whole % 2 = 1) then whole + 1 else whole

/-- The exponent of the spacing at a positive quotient: significands there have 53 bits, as
long as the spacing is not finer than that of the least positive number. -/
def spacing (numerator denominator : Nat) : Int :=
  let estimate := (numerator.log2 : Int) - denominator.log2 - 53
  let fits : Bool :=
    numerator * Nat.pow 2 (-estimate).toNat <
      2 * fractionSpan * denominator * Nat.pow 2 estimate.toNat
  max (if fits then estimate else estimate + 1) (-1074)

/-- The number nearest to a quotient, with the given sign. -/
def ofRatio (negative : Bool) (numerator denominator : Nat) : Double :=
  if numerator = 0 then ofSigned negative 0
  else
    let exponent := spacing numerator denominator
    let rounded :=
      roundHalfEven (numerator * Nat.pow 2 (-exponent).toNat)
        (denominator * Nat.pow 2 exponent.toNat)
    let packed := (exponent + 1074).toNat * fractionSpan + rounded
    ofSigned negative (min packed (2047 * fractionSpan))

/-- The number nearest to an integer. -/
def ofInt (number : Int) : Double :=
  ofRatio (number < 0) number.natAbs 1

/-! ### Arithmetic on finite numbers -/

/-- The rounded product of two finite numbers. -/
def multipliedBy (left right : Double) : Double :=
  ofRatio (left.isNegative != right.isNegative) (left.magnitude.1 * right.magnitude.1)
    (left.magnitude.2 * right.magnitude.2)

/-- The rounded quotient of two finite numbers, of which the second is not zero. -/
def dividedBy (left right : Double) : Double :=
  ofRatio (left.isNegative != right.isNegative) (left.magnitude.1 * right.magnitude.2)
    (left.magnitude.2 * right.magnitude.1)

/-- The number with the opposite sign. -/
def negated (number : Double) : Double :=
  ofSigned (!number.isNegative) (number.bits.toNat % signSpan)

/-- The number nearest to a power of ten. -/
def powerOfTen (exponent : Nat) : Double :=
  ofRatio false (Nat.pow 10 exponent) 1

end DocQuery.Double

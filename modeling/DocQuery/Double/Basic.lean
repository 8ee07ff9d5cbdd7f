/-
This file holds double-precision numbers as their 64 bits: a sign, eleven bits of exponent
and fifty-two bits of fraction.

Nothing here computes with machine floats. A finite number is read off its bits as a natural
`significand` times a power of two, which is what rounding and writing work on. Comparison is
the numeric one: a not-a-number is equal to nothing, and the two zeros are equal.
-/

namespace DocQuery

/-- A double-precision number, given by its bits. -/
structure Double where
  /-- Sign, exponent and fraction, from the highest bit down. -/
  bits : UInt64
  deriving DecidableEq

namespace Double

/-! ### The parts of a number -/

/-- The number of fractions, 2 to the power of 52. -/
def fractionSpan : Nat := 4503599627370496

/-- The number of bit patterns without a sign, 2 to the power of 63. -/
def signSpan : Nat := 9223372036854775808

/-- Whether the sign bit is set. -/
def isNegative (number : Double) : Bool :=
  signSpan ≤ number.bits.toNat

/-- The eleven bits of the exponent. -/
def exponentField (number : Double) : Nat :=
  number.bits.toNat / fractionSpan % 2048

/-- The fifty-two bits of the fraction. -/
def fraction (number : Double) : Nat :=
  number.bits.toNat % fractionSpan

/-- Whether the number is neither an infinity nor a not-a-number. -/
def isFinite (number : Double) : Bool :=
  number.exponentField != 2047

/-- Whether the bits stand for no number at all. -/
def isNaN (number : Double) : Bool :=
  number.exponentField == 2047 && number.fraction != 0

/-- Whether the number is a zero of either sign. -/
def isZero (number : Double) : Bool :=
  number.exponentField == 0 && number.fraction == 0

/-- The natural that a power of two scales to the magnitude of a finite number. -/
def significand (number : Double) : Nat :=
  if number.exponentField = 0 then number.fraction else fractionSpan + number.fraction

/-- The exponent of the power of two that scales the significand. -/
def scale (number : Double) : Int :=
  if number.exponentField = 0 then -1074 else (number.exponentField : Int) - 1075

/-- Numerator and denominator of the magnitude of a finite number. -/
def magnitude (number : Double) : Nat × Nat :=
  (number.significand * Nat.pow 2 number.scale.toNat, Nat.pow 2 (-number.scale).toNat)

/-- The number with this sign and these bits below it. -/
def ofSigned (negative : Bool) (rest : Nat) : Double :=
  ⟨UInt64.ofNat ((if negative then signSpan else 0) + rest)⟩

/-! ### Numeric equality -/

/-- Equality of numbers: the zeros are equal and a not-a-number is equal to nothing. -/
def equal (left right : Double) : Bool :=
  !left.isNaN && !right.isNaN && (left == right || left.isZero && right.isZero)

theorem equal_self_iff (number : Double) : number.equal number = true ↔ number.isNaN = false := by
  simp [equal]

theorem equal_comm (left right : Double) : left.equal right = right.equal left := by
  simp only [equal, Bool.and_comm (!left.isNaN), Bool.and_comm left.isZero]
  rw [show (left == right) = (right == left) from Bool.beq_comm]

theorem equal_trans {first second third : Double} (left : first.equal second = true)
    (right : second.equal third = true) : first.equal third = true := by
  simp only [equal, Bool.and_eq_true, Bool.not_eq_true', Bool.or_eq_true, beq_iff_eq] at *
  obtain ⟨⟨firstNumber, _⟩, same⟩ := left
  obtain ⟨⟨_, thirdNumber⟩, same'⟩ := right
  refine ⟨⟨firstNumber, thirdNumber⟩, ?_⟩
  rcases same with rfl | ⟨firstZero, secondZero⟩
  · exact same'
  · rcases same' with rfl | ⟨_, thirdZero⟩
    · exact Or.inr ⟨firstZero, secondZero⟩
    · exact Or.inr ⟨firstZero, thirdZero⟩

end Double

end DocQuery

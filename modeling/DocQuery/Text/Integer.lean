/-
This file writes and reads signed integers of 64 bits as decimal text.

An integer is written with a minus sign if it is negative and without leading zeros. Reading
is wider: a sign of either kind may stand in front, zeros may lead, and anything that is not
then a run of ASCII digits, or does not fit 64 bits, is refused. What is written reads back.
-/

namespace DocQuery.Text

/-! ### Writing -/

/-- The decimal text of an integer. -/
def writeInt (number : Int) : String :=
  if number < 0 then "-" ++ Nat.repr number.natAbs else Nat.repr number.natAbs

/-- The decimal text of a 64-bit integer. -/
def writeInt64 (number : Int64) : String :=
  writeInt number.toInt

/-! ### Reading -/

/-- The value of a run of ASCII digits, which must not be empty. -/
def readDigits? (digits : List Char) : Option Nat :=
  if digits ≠ [] ∧ digits.all Char.isDigit then some (Nat.ofDigitChars 10 digits 0) else none

/-- The value of an optional sign and a run of ASCII digits. -/
def readInt? : List Char → Option Int
  | '+' :: digits => (readDigits? digits).map Int.ofNat
  | '-' :: digits => (readDigits? digits).map fun magnitude => -Int.ofNat magnitude
  | digits => (readDigits? digits).map Int.ofNat

/-- Whether an integer fits 64 bits with sign. -/
def fitsInt64 (number : Int) : Bool :=
  -9223372036854775808 ≤ number && number ≤ 9223372036854775807

/-- The 64-bit integer that the characters denote, if they denote one. -/
def readInt64? (characters : List Char) : Option Int64 :=
  match readInt? characters with
  | none => none
  | some number => if fitsInt64 number then some (Int64.ofInt number) else none

/-! ### What is written reads back -/

theorem all_isDigit_repr (number : Nat) : (Nat.repr number).toList.all Char.isDigit = true := by
  rw [Nat.repr_eq_ofList_toDigits, String.toList_ofList, List.all_eq_true]
  exact fun _ member => Nat.isDigit_of_mem_toDigits (by decide) (by decide) member

theorem readDigits?_repr (number : Nat) : readDigits? (Nat.repr number).toList = some number := by
  have digits : ((Nat.toDigits 10 number).all Char.isDigit) = true :=
    List.all_eq_true.mpr fun _ member =>
      Nat.isDigit_of_mem_toDigits (by decide) (by decide) member
  simp [readDigits?, Nat.repr_eq_ofList_toDigits, digits, Nat.ofDigitChars_ten_toDigits]

theorem repr_toList_head_isDigit (number : Nat) {first : Char} {rest : List Char}
    (shape : (Nat.repr number).toList = first :: rest) : first.isDigit = true := by
  rw [Nat.repr_eq_ofList_toDigits, String.toList_ofList] at shape
  exact Nat.isDigit_of_mem_toDigits (by decide) (by decide) (shape ▸ List.mem_cons_self)

theorem readInt?_writeInt (number : Int) : readInt? (writeInt number).toList = some number := by
  by_cases negative : number < 0
  · have shape : (writeInt number).toList = '-' :: (Nat.repr number.natAbs).toList := by
      simp [writeInt, negative]
    rw [shape]
    have value : -Int.ofNat number.natAbs = number := by simp only [Int.ofNat_eq_natCast]; omega
    rw [readInt?, readDigits?_repr, Option.map_some, value]
  · have shape : (writeInt number).toList = (Nat.repr number.natAbs).toList := by
      simp [writeInt, negative]
    have value : Int.ofNat number.natAbs = number := by simp only [Int.ofNat_eq_natCast]; omega
    rw [shape]
    have read := readDigits?_repr number.natAbs
    generalize split : (Nat.repr number.natAbs).toList = characters at read
    unfold readInt?
    split
    · rename_i digits
      exact absurd (repr_toList_head_isDigit _ split) (by decide)
    · rename_i digits
      exact absurd (repr_toList_head_isDigit _ split) (by decide)
    · rw [read, Option.map_some, value]

/-- Every integer of 64 bits fits them. -/
theorem fitsInt64_toInt (number : Int64) : fitsInt64 number.toInt = true := by
  have lower := Int64.le_toInt number
  have upper := Int64.toInt_lt number
  simp only [fitsInt64, Bool.and_eq_true, decide_eq_true_eq]
  omega

/-- An integer that fits 64 bits is kept by them. -/
theorem toInt_ofInt_of_fits {number : Int} (fits : fitsInt64 number = true) :
    (Int64.ofInt number).toInt = number := by
  simp only [fitsInt64, Bool.and_eq_true, decide_eq_true_eq] at fits
  exact Int64.toInt_ofInt_of_le (by omega) (by omega)

theorem readInt64?_writeInt64 (number : Int64) :
    readInt64? (writeInt64 number).toList = some number := by
  simp [readInt64?, writeInt64, readInt?_writeInt, fitsInt64_toInt, Int64.ofInt_toInt]

end DocQuery.Text

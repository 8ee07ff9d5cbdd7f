/-
This file proves that the text of an instant in a year of four digits denotes a point in time.

Every number of the text is padded to its width, so it is read back by that width alone, and every
mark between two numbers is the one that is looked for there. What remains is that the numbers are
those of a date and of a time of day. The date comes from the calendar, where only the 29th of
February needs an argument: it is the last day of a year that starts in March, which is there only
if the last year of four is the last of a century as rarely as leap years ask for.
-/

import Mathlib.Tactic.IntervalCases
import DocQuery.Instant.Basic
import DocQuery.Instant.Timestamp

namespace DocQuery

namespace Calendar

/-! ### Days of the calendar -/

/-- A day within the lengths lies in one of them, behind all lengths before it. -/
theorem splitDay_spec {lengths : List Nat} {day : Nat} (within : day < lengths.sum) :
    ∃ length, lengths[(splitDay lengths day).1]? = some length ∧
      (splitDay lengths day).2 < length ∧
      (lengths.take (splitDay lengths day).1).sum + (splitDay lengths day).2 = day := by
  induction lengths generalizing day with
  | nil => cases within
  | cons length rest inductionHypothesis =>
    rw [List.sum_cons] at within
    by_cases first : day < length
    · rw [splitDay, if_pos first]
      exact ⟨length, rfl, first, Nat.zero_add day⟩
    · have later : day - length < rest.sum := by omega
      obtain ⟨found, position, inside, sum⟩ := inductionHypothesis later
      rw [splitDay, if_neg first]
      refine ⟨found, position, inside, ?_⟩
      dsimp only
      rw [List.take_succ_cons, List.sum_cons]
      omega

theorem isLeap_iff (year : Int) :
    isLeap year = true ↔ year % 4 = 0 ∧ (year % 100 ≠ 0 ∨ year % 400 = 0) := by
  simp [isLeap]

/-- A year that starts in March has at most 366 days, and a last one only in front of the end of a
leap year's February. -/
theorem marchDay_spec (days : Int) :
    (marchDay days).day ≤ 365 ∧
      ((marchDay days).day = 365 → isLeap ((marchDay days).year + 1) = true) := by
  have era : (days % 146097).toNat < 146097 := by omega
  rw [isLeap_iff]
  dsimp only [marchDay]
  generalize (days % 146097).toNat = inEra at era ⊢
  generalize days / 146097 = cycles
  -- The day 365 ends the last of four years. The next number is a multiple of 100 only if these
  -- four are the last of a century, and then it is the longer century at the end of a cycle.
  omega

theorem monthLength_le (year : Int) (month : Nat) : monthLength year month ≤ 31 := by
  fun_cases monthLength year month <;> decide

/-- The months from March to December are as long in every year. -/
theorem monthLength_fromMarch (year : Int) {position length : Nat}
    (found : monthsFromMarch[position]? = some length) (early : position < 10) :
    monthLength year (position + 3) = length := by
  interval_cases position <;> cases found <;> rfl

/-- The date of a day is one of its month. -/
theorem dateOfDay_spec (days : Int) :
    1 ≤ (dateOfDay days).month ∧ (dateOfDay days).month ≤ 12 ∧ 1 ≤ (dateOfDay days).day ∧
      (dateOfDay days).day ≤ monthLength (dateOfDay days).year (dateOfDay days).month := by
  obtain ⟨bound, leap⟩ := marchDay_spec (days + 719468)
  have within : (marchDay (days + 719468)).day < monthsFromMarch.sum := Nat.lt_succ_of_le bound
  obtain ⟨length, position, inside, sum⟩ := splitDay_spec within
  rw [dateOfDay]
  generalize marchDay (days + 719468) = march at *
  generalize splitDay monthsFromMarch march.day = split at *
  by_cases early : split.1 < 10
  · rw [if_pos early]
    dsimp only
    rw [monthLength_fromMarch _ position early]
    omega
  · rw [if_neg early]
    have bounded : split.1 < 12 := (List.getElem?_eq_some_iff.mp position).1
    obtain january | february : split.1 = 10 ∨ split.1 = 11 := by omega
    · rw [january] at position ⊢
      cases position
      show 1 ≤ 1 ∧ 1 ≤ 12 ∧ 1 ≤ split.2 + 1 ∧ split.2 + 1 ≤ 31
      omega
    · rw [february] at position sum ⊢
      cases position
      have before : (monthsFromMarch.take 11).sum = 337 := rfl
      -- Only a leap year has the 29th day that the list of lengths allows for.
      show 1 ≤ 2 ∧ 2 ≤ 12 ∧ 1 ≤ split.2 + 1 ∧
        split.2 + 1 ≤ if isLeap (march.year + 1) = true then 29 else 28
      by_cases last : march.day = 365
      · rw [if_pos (leap last)]
        omega
      · split <;> omega

end Calendar

namespace Timestamp

/-! ### Numbers of fixed width -/

theorem all_isDigit_padded (width number : Nat) :
    (Instant.padded width number).all Char.isDigit = true := by
  have digits : (Nat.toDigits 10 number).all Char.isDigit = true :=
    List.all_eq_true.mpr fun _ member =>
      Nat.isDigit_of_mem_toDigits (by decide) (by decide) member
  rw [Instant.padded, List.leftpad, List.all_append, digits, Bool.and_true, List.all_replicate]
  simp

theorem length_padded {width number : Nat} (positive : 0 < width) (fits : number < 10 ^ width) :
    (Instant.padded width number).length = width := by
  rw [Instant.padded, List.length_leftpad]
  exact Nat.max_eq_left ((Nat.length_toDigits_le_iff (by decide) positive).mpr fits)

/-- A number that is padded to its width is read with all that follows it left over. -/
theorem number?_padded {width number : Nat} (positive : 0 < width) (fits : number < 10 ^ width)
    (rest : List Char) :
    number? width (Instant.padded width number ++ rest) = some (number, rest) := by
  have length := length_padded positive fits
  have value : Nat.ofDigitChars 10 (Instant.padded width number) 0 = number := by
    rw [Instant.padded, List.leftpad, Nat.ofDigitChars_append, Nat.ofDigitChars_replicate_zero,
      Nat.mul_zero, Nat.ofDigitChars_ten_toDigits]
  rw [number?, List.take_left' length, List.drop_left' length, value,
    if_pos ⟨length, all_isDigit_padded width number⟩]

/-! ### The parts of a text -/

/-- The offset of universal time. -/
def universal : List Char :=
  ['+', '0', '0', ':', '0', '0']

theorem date?_padded {year month day : Nat} (fourDigits : year < 10 ^ 4)
    (isMonth : 1 ≤ month ∧ month ≤ 12) (isDay : 1 ≤ day ∧ day ≤ Calendar.monthLength year month)
    (rest : List Char) :
    date? (Instant.padded 4 year ++ '-' :: (Instant.padded 2 month ++
      '-' :: (Instant.padded 2 day ++ rest))) = some rest := by
  have short := Calendar.monthLength_le year month
  have monthFits : month < 10 ^ 2 := by omega
  have dayFits : day < 10 ^ 2 := by omega
  have dash (text : List Char) : oneOf? ['-'] ('-' :: text) = some text := rfl
  simp only [date?, dash, number?_padded (by decide) fourDigits,
    number?_padded (by decide) monthFits, number?_padded (by decide) dayFits, Option.bind_eq_bind,
    Option.bind_some, if_pos isDay]

/-- A fraction is read up to the offset, whatever its digits are. -/
theorem fraction?_point {digits : List Char} (nonempty : digits ≠ [])
    (all : digits.all Char.isDigit = true) :
    fraction? ('.' :: digits ++ universal) = some universal := by
  have each (digit : Char) (member : digit ∈ digits) : digit.isDigit = true :=
    List.all_eq_true.mp all digit member
  have taken : (digits ++ universal).takeWhile Char.isDigit = digits := by
    rw [List.takeWhile_append_of_pos each]
    exact List.append_nil digits
  have dropped : (digits ++ universal).dropWhile Char.isDigit = universal := by
    rw [List.dropWhile_append_of_pos each]
    rfl
  rw [List.cons_append, fraction?, taken, dropped, List.isEmpty_eq_false_iff.mpr nonempty]
  rfl

theorem fraction?_fractionText (nanoseconds : Nat) :
    fraction? (Instant.fractionText nanoseconds ++ universal) = some universal := by
  have group (width number : Nat) :
      fraction? ('.' :: Instant.padded width number ++ universal) = some universal := by
    refine fraction?_point (fun empty => ?_) (all_isDigit_padded width number)
    rw [Instant.padded, List.leftpad, List.append_eq_nil_iff] at empty
    exact Nat.toDigits_ne_nil empty.2
  unfold Instant.fractionText
  split
  · rfl
  · split
    · exact group 3 _
    · split
      · exact group 6 _
      · exact group 9 _

theorem time?_padded {hour minute second : Nat} (isHour : hour < 24) (isMinute : minute < 60)
    (isSecond : second ≤ 60) (nanoseconds : Nat) :
    time? (Instant.padded 2 hour ++ ':' :: (Instant.padded 2 minute ++
      ':' :: (Instant.padded 2 second ++ (Instant.fractionText nanoseconds ++ universal)))) =
        some universal := by
  have isTime : hour < 24 ∧ minute < 60 ∧ second ≤ 60 := ⟨isHour, isMinute, isSecond⟩
  have hourFits : hour < 10 ^ 2 := by omega
  have minuteFits : minute < 10 ^ 2 := by omega
  have secondFits : second < 10 ^ 2 := by omega
  have colon (text : List Char) : oneOf? [':'] (':' :: text) = some text := rfl
  simp only [time?, colon, number?_padded (by decide) hourFits,
    number?_padded (by decide) minuteFits, number?_padded (by decide) secondFits,
    Option.bind_eq_bind, Option.bind_some, if_pos isTime, fraction?_fractionText]

end Timestamp

namespace Instant

/-! ### The text of an instant -/

/-- A year that four digits can hold. -/
def HasPlainYear (instant : Instant) : Prop :=
  0 ≤ instant.date.year ∧ instant.date.year ≤ 9999

/-- The date of an instant is one of its month. -/
theorem date_spec (instant : Instant) :
    1 ≤ instant.date.month ∧ instant.date.month ≤ 12 ∧ 1 ≤ instant.date.day ∧
      instant.date.day ≤ Calendar.monthLength instant.date.year instant.date.month :=
  Calendar.dateOfDay_spec (instant.seconds / 86400)

/-- The time of an instant is one of a day, in which a leap second is the second 60 or an earlier
one. -/
theorem time_spec (instant : Instant) :
    instant.hour < 24 ∧ instant.minute < 60 ∧ instant.second ≤ 60 := by
  have bound : instant.secondOfDay < 86400 := by
    unfold secondOfDay
    omega
  unfold hour minute second
  refine ⟨by omega, by omega, ?_⟩
  split <;> omega

theorem isTimestamp_write {instant : Instant} (plain : instant.HasPlainYear) :
    isTimestamp instant.write = true := by
  obtain ⟨least, greatest, first, last⟩ := instant.date_spec
  obtain ⟨isHour, isMinute, isSecond⟩ := instant.time_spec
  have year : ((instant.date.year.toNat : Nat) : Int) = instant.date.year :=
    Int.toNat_of_nonneg plain.1
  have fourDigits : instant.date.year.toNat < 10 ^ 4 := by
    have bound := plain.2
    omega
  have shape : instant.characters =
      padded 4 instant.date.year.toNat ++ '-' :: (padded 2 instant.date.month ++
        '-' :: (padded 2 instant.date.day ++ 'T' :: (padded 2 instant.hour ++
          ':' :: (padded 2 instant.minute ++ ':' :: (padded 2 instant.second ++
            (fractionText instant.subsecond ++ Timestamp.universal)))))) := by
    have inFour : 0 ≤ instant.date.year ∧ instant.date.year ≤ 9999 := plain
    simp only [characters, yearText, if_pos inFour, Timestamp.universal, List.append_assoc,
      List.cons_append]
  have isDay : 1 ≤ instant.date.day ∧ instant.date.day ≤
      Calendar.monthLength instant.date.year.toNat instant.date.month := by
    rw [year]
    exact ⟨first, last⟩
  have separator (text : List Char) :
      Timestamp.oneOf? ['T', 't', ' '] ('T' :: text) = some text := rfl
  have offset : Timestamp.offset? Timestamp.universal = some [] := rfl
  rw [isTimestamp, write, String.toList_ofList, shape, Timestamp.remainder?,
    Timestamp.date?_padded fourDigits ⟨least, greatest⟩ isDay]
  simp only [Option.bind_eq_bind, Option.bind_some, separator,
    Timestamp.time?_padded isHour isMinute isSecond, offset]
  rfl

end Instant

end DocQuery

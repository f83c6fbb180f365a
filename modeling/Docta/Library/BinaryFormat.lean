/-
Module: Docta.Library.BinaryFormat
Purpose: Binary floating-point formats: the nearest number that a format holds,
  halves to even, and the magnitude that a decimal numeral stands for.
Trusted boundary: none
Main exports: roundHalfEven, Format, Format.nearest, Format.Holds,
  nearest_of_holds, magnitude, magnitude_toDigits
-/
import Mathlib.Algebra.Order.Floor.Ring
import Mathlib.Data.Int.Log
import Mathlib.Data.List.TakeWhile
import Mathlib.Data.Rat.Floor
import Mathlib.Tactic.Ring

namespace Docta.BinaryFormat

/-! ### Rounding -/

/-- The nearest whole number; of two, the even one. -/
def roundHalfEven (value : ℚ) : ℤ :=
  if value - ⌊value⌋ < 1 / 2 then ⌊value⌋
  else if 1 / 2 < value - ⌊value⌋ then ⌊value⌋ + 1
  else ⌊value⌋ + ⌊value⌋ % 2

theorem roundHalfEven_intCast (value : ℤ) : roundHalfEven value = value := by
  rw [roundHalfEven, Int.floor_intCast, sub_self, if_pos one_half_pos]

/-- A format: the bits of a significand, the exponent of the smallest step, and the
power of two that finite numbers stay under. -/
structure Format where
  precision : Nat
  minExponent : Int
  limit : Nat
deriving DecidableEq, Repr

/-- IEEE 754 single precision. -/
def binary32 : Format where
  precision := 24
  minExponent := -149
  limit := 128

/-- IEEE 754 double precision. -/
def binary64 : Format where
  precision := 53
  minExponent := -1074
  limit := 1024

namespace Format

variable (format : Format)

/-- The exponent of the step between the numbers around a value. -/
def scale (value : ℚ) : ℤ :=
  max (Int.log 2 |value| - (format.precision - 1)) format.minExponent

/-- The nearest multiple of that step. -/
def rounded (value : ℚ) : ℚ :=
  roundHalfEven (value / 2 ^ format.scale value) * 2 ^ format.scale value

/-- The nearest number of a format, if it is finite. -/
def nearest (value : ℚ) : Option ℚ :=
  if |format.rounded value| < 2 ^ format.limit then some (format.rounded value) else none

/-- The finite numbers of a format. -/
def Holds (value : ℚ) : Prop :=
  |value| < 2 ^ format.limit ∧ ∃ significand exponent : ℤ,
    |significand| < 2 ^ format.precision ∧ format.minExponent ≤ exponent ∧
      value = significand * 2 ^ exponent

variable {format} {value : ℚ}

/-- The step around a number is no larger than the last place of its significand. -/
theorem scale_le {significand exponent : ℤ} (nonzero : significand ≠ 0)
    (small : |significand| < 2 ^ format.precision) (least : format.minExponent ≤ exponent) :
    format.scale (significand * 2 ^ exponent) ≤ exponent := by
  apply max_le _ least
  have positive : (0 : ℚ) < |(significand : ℚ) * 2 ^ exponent| :=
    abs_pos.mpr (mul_ne_zero (Int.cast_ne_zero.mpr nonzero) (zpow_ne_zero _ two_ne_zero))
  have below : |(significand : ℚ) * 2 ^ exponent| < (2 : ℕ) ^ (format.precision + exponent) := by
    have isSmall : |(significand : ℚ)| < 2 ^ format.precision := by exact_mod_cast small
    rw [abs_mul, abs_of_pos (zpow_pos two_pos exponent : (0 : ℚ) < 2 ^ exponent), Nat.cast_ofNat,
      zpow_add₀ two_ne_zero, zpow_natCast]
    exact mul_lt_mul_of_pos_right isSmall (zpow_pos two_pos exponent)
  have log := (Int.lt_zpow_iff_log_lt (by decide) positive).mp below
  omega

/-- A number that a format holds is a multiple of the step around it. -/
theorem Holds.rounded_eq (holds : format.Holds value) : format.rounded value = value := by
  obtain ⟨_, significand, exponent, small, least, rfl⟩ := holds
  by_cases zero : significand = 0
  · have none : roundHalfEven 0 = 0 := roundHalfEven_intCast 0
    rw [rounded, zero, Int.cast_zero, zero_mul, zero_div, none, Int.cast_zero, zero_mul]
  · obtain ⟨more, isMore⟩ := Int.le.dest (scale_le zero small least)
    have stepped : (significand : ℚ) * 2 ^ exponent /
        2 ^ format.scale (significand * 2 ^ exponent) = (significand * 2 ^ more : ℤ) := by
      rw [mul_div_assoc, ← zpow_sub₀ two_ne_zero, show exponent -
        format.scale (significand * 2 ^ exponent) = more by omega, zpow_natCast]
      push_cast
      rfl
    rw [rounded, stepped, roundHalfEven_intCast, ← stepped,
      div_mul_cancel₀ _ (zpow_ne_zero _ two_ne_zero)]

/-- A format keeps the numbers that it holds. -/
theorem nearest_of_holds (holds : format.Holds value) : format.nearest value = some value := by
  rw [nearest, holds.rounded_eq, if_pos holds.1]

/-- A format holds the whole numbers that fit in a significand. -/
theorem holds_natCast {number : Nat} (small : number < 2 ^ format.precision)
    (ranged : format.precision ≤ format.limit) (least : format.minExponent ≤ 0) :
    format.Holds number := by
  refine ⟨?_, number, 0, ?_, least, ?_⟩
  · rw [Nat.abs_cast]
    exact_mod_cast small.trans_le (Nat.pow_le_pow_right two_pos ranged)
  · rw [Nat.abs_cast]
    exact_mod_cast small
  · rw [zpow_zero, mul_one, Int.cast_natCast]

end Format

/-! ### Numerals -/

/-- The number that decimal digits stand for. -/
def natural (digits : List Char) : Nat :=
  Nat.ofDigitChars 10 digits 0

/-- The exponent of a numeral: its digits and its sign. -/
def exponent : List Char → Int
  | '-' :: digits => -natural digits
  | '+' :: digits => natural digits
  | digits => natural digits

/-- The magnitude of a decimal numeral with a sign, a fraction and an exponent. -/
def magnitude (numeral : List Char) : ℚ :=
  let unsigned := numeral.dropWhile (· = '-')
  let mantissa := unsigned.takeWhile fun char => char ≠ 'e' ∧ char ≠ 'E'
  let whole := mantissa.takeWhile (· ≠ '.')
  let fraction := mantissa.drop (whole.length + 1)
  natural (whole ++ fraction) *
    10 ^ (exponent (unsigned.drop (mantissa.length + 1)) - fraction.length)

/-- The digits of a natural number stand for it. -/
theorem magnitude_toDigits (number : Nat) : magnitude (Nat.toDigits 10 number) = number := by
  have plain {char : Char} (member : char ∈ Nat.toDigits 10 number) :
      char ≠ '-' ∧ char ≠ '.' ∧ char ≠ 'e' ∧ char ≠ 'E' := by
    have isDigit := Nat.isDigit_of_mem_toDigits (by decide) (by decide) member
    refine ⟨?_, ?_, ?_, ?_⟩ <;>
      · rintro rfl
        exact absurd isDigit (by decide)
  have unsigned : (Nat.toDigits 10 number).dropWhile (· = '-') = Nat.toDigits 10 number := by
    cases digits : Nat.toDigits 10 number with
    | nil => rfl
    | cons head rest =>
        have first := (plain (digits ▸ List.mem_cons_self : head ∈ _)).1
        rw [List.dropWhile_cons_of_neg (by simpa using first)]
  have mantissa : ((Nat.toDigits 10 number).takeWhile fun char => char ≠ 'e' ∧ char ≠ 'E') =
      Nat.toDigits 10 number :=
    List.takeWhile_eq_self_iff.mpr fun char member => decide_eq_true (plain member).2.2
  have whole : (Nat.toDigits 10 number).takeWhile (· ≠ '.') = Nat.toDigits 10 number :=
    List.takeWhile_eq_self_iff.mpr fun char member => decide_eq_true (plain member).2.1
  have none : (Nat.toDigits 10 number).drop ((Nat.toDigits 10 number).length + 1) = [] :=
    List.drop_eq_nil_of_le (Nat.le_succ _)
  have noExponent : exponent [] = 0 := rfl
  rw [magnitude]
  simp only [unsigned, mantissa, whole, none, List.append_nil, List.length_nil, noExponent]
  rw [natural, Nat.ofDigitChars_ten_toDigits]
  simp

end Docta.BinaryFormat

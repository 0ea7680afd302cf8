import Mathlib

/-!
Doubles by their bits. A double that is not a NaN is a whole number of times the smallest
positive double, an infinity beyond every finite one, and comparisons of doubles compare
these numbers. Whole numbers are rounded to doubles to the nearest, ties to even.
-/

namespace GeoWorld.Library

namespace Binary64

def exponentBits (bits : UInt64) : ℕ := bits.toNat / 2 ^ 52 % 2 ^ 11

def fractionBits (bits : UInt64) : ℕ := bits.toNat % 2 ^ 52

/-- `std::isfinite`. -/
def isFinite (bits : UInt64) : Bool := exponentBits bits != 2047

def isNan (bits : UInt64) : Bool := exponentBits bits == 2047 && fractionBits bits != 0

/-- The value in units of `2 ^ (-1074)`. -/
def units (bits : UInt64) : ℤ :=
  let magnitude : ℕ :=
    if exponentBits bits = 0 then fractionBits bits
    else (2 ^ 52 + fractionBits bits) * 2 ^ (exponentBits bits - 1)
  if 2 ^ 63 ≤ bits.toNat then -magnitude else magnitude

/-- The `==` of two doubles. -/
def equal (left right : UInt64) : Bool :=
  !isNan left && !isNan right && units left == units right

/-- The `<=` of two doubles. -/
def lessEqual (left right : UInt64) : Bool :=
  !isNan left && !isNan right && decide (units left ≤ units right)

/-- The nearest number of 53 binary digits. -/
def nearest (number : ℕ) : ℕ :=
  let unit := 2 ^ (number.log2 - 52)
  let quotient := number / unit
  let rest := number % unit
  if unit < 2 * rest ∨ unit = 2 * rest ∧ quotient % 2 = 1 then
    (quotient + 1) * unit
  else
    quotient * unit

/-- A positive number does not round to zero. -/
theorem nearest_pos {number : ℕ} (positive : 0 < number) : 0 < nearest number := by
  have small : 2 ^ (number.log2 - 52) ≤ number :=
    (Nat.pow_le_pow_right (by decide) (Nat.sub_le _ _)).trans (Nat.log2_self_le positive.ne')
  have quotient : 0 < number / 2 ^ (number.log2 - 52) := Nat.div_pos small (by positivity)
  unfold nearest
  simp only
  split_ifs <;> positivity

section Equality

/-- `-0.0`. -/
def negativeZero : UInt64 := 0x8000000000000000

def magnitude (bits : UInt64) : ℕ :=
  if exponentBits bits = 0 then fractionBits bits
  else (2 ^ 52 + fractionBits bits) * 2 ^ (exponentBits bits - 1)

theorem units_eq (bits : UInt64) :
    units bits = if 2 ^ 63 ≤ bits.toNat then -(magnitude bits : ℤ) else magnitude bits := by
  unfold units magnitude
  rfl

theorem fraction_lt (bits : UInt64) : fractionBits bits < 2 ^ 52 :=
  Nat.mod_lt _ (by decide)

/-- Every exponent has a range of magnitudes of its own. -/
theorem magnitude_lt {left right : UInt64} (lower : exponentBits left < exponentBits right) :
    magnitude left < magnitude right := by
  have fraction := fraction_lt left
  have above : 2 ^ 52 * 2 ^ (exponentBits right - 1) ≤ magnitude right := by
    unfold magnitude
    rw [if_neg (by omega)]
    exact Nat.mul_le_mul_right _ (Nat.le_add_right _ _)
  refine lt_of_lt_of_le ?_ above
  unfold magnitude
  split
  · exact fraction.trans_le (Nat.le_mul_of_pos_right _ (by positivity))
  · rename_i normal
    have step : exponentBits left - 1 + 1 ≤ exponentBits right - 1 := by omega
    calc (2 ^ 52 + fractionBits left) * 2 ^ (exponentBits left - 1)
        < (2 ^ 52 + 2 ^ 52) * 2 ^ (exponentBits left - 1) :=
          Nat.mul_lt_mul_of_pos_right (by omega) (by positivity)
      _ = 2 ^ 52 * 2 ^ (exponentBits left - 1 + 1) := by rw [pow_succ]; ring
      _ ≤ 2 ^ 52 * 2 ^ (exponentBits right - 1) :=
          Nat.mul_le_mul_left _ (Nat.pow_le_pow_right (by decide) step)

/-- A magnitude has one exponent and one fraction. -/
theorem fields_eq {left right : UInt64} (same : magnitude left = magnitude right) :
    exponentBits left = exponentBits right ∧ fractionBits left = fractionBits right := by
  have exponents : exponentBits left = exponentBits right := by
    rcases Nat.lt_trichotomy (exponentBits left) (exponentBits right) with lower | equal | higher
    · exact absurd same (magnitude_lt lower).ne
    · exact equal
    · exact absurd same (magnitude_lt higher).ne'
  refine ⟨exponents, ?_⟩
  unfold magnitude at same
  rw [exponents] at same
  split at same
  · exact same
  · have factors := Nat.eq_of_mul_eq_mul_right (by positivity) same
    omega

theorem bits_eq (bits : UInt64) : bits.toNat =
    (if 2 ^ 63 ≤ bits.toNat then 2 ^ 63 else 0) + exponentBits bits * 2 ^ 52 +
      fractionBits bits := by
  have bound := bits.toNat_lt
  unfold exponentBits fractionBits
  split <;> omega

/-- Doubles that compare equal have the same bits, or are the two zeros. -/
theorem equal_cases {left right : UInt64} (same : equal left right = true) :
    left = right ∨ left = 0 ∧ right = negativeZero ∨ left = negativeZero ∧ right = 0 := by
  have values : units left = units right := by
    simp only [equal, Bool.and_eq_true, beq_iff_eq] at same
    exact same.2
  rw [units_eq, units_eq] at values
  have magnitudes : magnitude left = magnitude right := by
    split at values <;> split at values <;> omega
  obtain ⟨exponents, fractions⟩ := fields_eq magnitudes
  have first := bits_eq left
  have second := bits_eq right
  by_cases signs : (2 ^ 63 ≤ left.toNat ↔ 2 ^ 63 ≤ right.toNat)
  · refine .inl (UInt64.toNat_inj.mp ?_)
    rw [first, second, exponents, fractions]
    simp only [signs]
  · have zero : magnitude left = magnitude 0 := by
      rw [show magnitude 0 = 0 from rfl]
      split at values <;> split at values <;> omega
    obtain ⟨exponent, fraction⟩ := fields_eq zero
    obtain ⟨exponent', fraction'⟩ := fields_eq (magnitudes.symm.trans zero)
    rw [exponent, fraction] at first
    rw [exponent', fraction'] at second
    simp only [show exponentBits 0 = 0 from rfl, show fractionBits 0 = 0 from rfl] at first second
    have negative : negativeZero.toNat = 2 ^ 63 := rfl
    by_cases sign : 2 ^ 63 ≤ left.toNat
    · rw [if_pos sign] at first
      rw [if_neg (by omega)] at second
      exact .inr (.inr ⟨UInt64.toNat_inj.mp (first.trans negative.symm), UInt64.toNat_inj.mp second⟩)
    · rw [if_neg sign] at first
      rw [if_pos (by omega)] at second
      exact .inr (.inl ⟨UInt64.toNat_inj.mp first, UInt64.toNat_inj.mp (second.trans negative.symm)⟩)

end Equality

end Binary64

end GeoWorld.Library

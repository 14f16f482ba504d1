import DarkServices.Lib.Json
import Mathlib.Data.Rat.Cast.Defs
import Mathlib.Tactic.FieldSimp
import Mathlib.Tactic.Linarith
import Mathlib.Tactic.Positivity
import Mathlib.Tactic.Ring

/-!
# Decimals as rational numbers

The value of a decimal, and what a column of two decimal places keeps of it: rounding to
hundredths is exact for the whole numbers of hundredths and for no other number.
-/

namespace Lib
namespace Decimal

/-- The value of a decimal. -/
def toRat (d : Decimal) : ℚ := d.coeff / 10 ^ d.scale

/-- The number is a whole number of hundredths. -/
def IsWholeCents (d : Decimal) : Prop := ∃ n : ℤ, d.toRat * 100 = n

@[simp] theorem toRat_ofCents (n : ℤ) : (ofCents n).toRat = n / 100 := by
  norm_num [toRat, ofCents]

theorem toRat_pos {d : Decimal} : 0 < d.toRat ↔ 0 < d.coeff := by
  have hpow : (0 : ℚ) < 10 ^ d.scale := by positivity
  rw [toRat, div_pos_iff_of_pos_right hpow]
  exact Int.cast_pos

/-- Over the integers: the numerator times a hundred is a multiple of the denominator. -/
theorem toRat_mul_hundred_eq_iff {d : Decimal} {n : ℤ} :
    d.toRat * 100 = n ↔ d.coeff * 100 = n * 10 ^ d.scale := by
  have hpow : (10 : ℚ) ^ d.scale ≠ 0 := by positivity
  rw [toRat, div_mul_eq_mul_div, div_eq_iff hpow]
  exact_mod_cast Iff.rfl

/-- A whole number of hundredths is rounded to itself. -/
theorem toCents_of_whole {d : Decimal} {n : ℤ} (h : d.toRat * 100 = n) : d.toCents = n := by
  rw [toRat_mul_hundred_eq_iff] at h
  have hpow : 0 < 10 ^ d.scale := Nat.pow_pos (by omega)
  -- the sign and the absolute value of the number of hundredths
  have hsign : d.coeff.sign = n.sign := by
    have hs := congrArg Int.sign h
    have hpow' : (10 ^ d.scale : ℤ).sign = 1 := Int.sign_eq_one_of_pos (by positivity)
    rwa [Int.sign_mul, Int.sign_mul, hpow', mul_one, show Int.sign 100 = 1 from rfl,
      mul_one] at hs
  have habs : d.coeff.natAbs * 100 = n.natAbs * 10 ^ d.scale := by
    have ha := congrArg Int.natAbs h
    rwa [Int.natAbs_mul, Int.natAbs_mul, Int.natAbs_pow] at ha
  have hround : (2 * (d.coeff.natAbs * 100) + 10 ^ d.scale) / (2 * 10 ^ d.scale) = n.natAbs := by
    have hnum : 2 * (n.natAbs * 10 ^ d.scale) + 10 ^ d.scale =
        10 ^ d.scale * (2 * n.natAbs + 1) := by ring
    rw [habs, hnum, Nat.mul_comm 2 (10 ^ d.scale), Nat.mul_div_mul_left _ _ hpow]
    omega
  rw [toCents, hround, hsign]
  exact Int.sign_mul_natAbs n

/-- The rounded number is the number exactly when that is a whole number of hundredths. -/
theorem toRat_ofCents_toCents_iff {d : Decimal} :
    d.toRat = (ofCents d.toCents).toRat ↔ d.IsWholeCents := by
  rw [toRat_ofCents]
  constructor
  · intro h
    exact ⟨d.toCents, by rw [h]; ring⟩
  · intro ⟨n, hn⟩
    rw [toCents_of_whole hn, ← hn]
    ring

end Decimal
end Lib

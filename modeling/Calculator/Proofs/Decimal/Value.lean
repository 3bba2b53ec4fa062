import Calculator.Decimal
import Mathlib.Algebra.Order.Field.Power
import Mathlib.Data.List.Induction
import Mathlib.Data.Rat.Cast.Order
import Mathlib.Tactic.Linarith
import Mathlib.Tactic.Ring

/-!
# The value of a decimal

The number of places before the point bounds a decimal by the two powers of ten next to it
(`le_toRat`, `toRat_lt`). The value is not changed by taking zeros off the coefficient
(`toRat_strip`) nor by putting the places of a positive exponent into it (`toRat_scaled`), and the
digits of the positional layout are those of the scaled coefficient (`digitsValue_places`).
-/

namespace Calculator

/-! ## 1. Digits -/

theorem lt_pow_digitCount (n : Nat) : n < 10 ^ digitCount n := by
  fun_induction digitCount n with
  | case1 n h => omega
  | case2 n h ih =>
      rw [Nat.pow_succ]
      omega

theorem pow_digitCount_le {n : Nat} (h : n ≠ 0) : 10 ^ (digitCount n - 1) ≤ n := by
  fun_induction digitCount n with
  | case1 n h10 =>
      show 1 ≤ n
      omega
  | case2 n h10 ih =>
      obtain ⟨k, hk⟩ : ∃ k, digitCount (n / 10) = k + 1 :=
        Nat.exists_eq_succ_of_ne_zero (by rw [digitCount]; split <;> omega)
      have ih := ih (by omega)
      rw [hk] at ih ⊢
      show 10 ^ k * 10 ≤ n
      have ih : 10 ^ k ≤ n / 10 := ih
      omega

/-- The first of two runs of digits counts as often as the second has places. -/
theorem digitsValue_append (s t : Text) :
    digitsValue (s ++ t) = digitsValue s * 10 ^ t.length + digitsValue t := by
  induction t using List.reverseRecOn with
  | nil => simp [digitsValue]
  | append_singleton t c ih =>
      rw [← List.append_assoc, digitsValue_concat, digitsValue_concat, ih, List.length_append,
        List.length_singleton, Nat.pow_succ]
      ring

namespace Decimal

/-! ## 2. Value and order -/

theorem toRat_nonneg (d : Decimal) : 0 ≤ d.toRat :=
  mul_nonneg (Nat.cast_nonneg _) (zpow_pos (by norm_num) _).le

theorem toRat_of_coefficient_eq_zero {d : Decimal} (h : d.coefficient = 0) : d.toRat = 0 := by
  rw [toRat, h]
  exact zero_mul _

theorem toRat_lt (d : Decimal) : d.toRat < 10 ^ d.magnitudeOrder := by
  have hlt : (d.coefficient : Rat) < ((10 ^ digitCount d.coefficient : Nat) : Rat) := by
    exact_mod_cast lt_pow_digitCount d.coefficient
  have hpow : (10 : Rat) ^ d.magnitudeOrder =
      ((10 ^ digitCount d.coefficient : Nat) : Rat) * 10 ^ d.exponent := by
    rw [magnitudeOrder, zpow_add₀ (by norm_num), zpow_natCast]
    push_cast
    rfl
  rw [hpow]
  exact mul_lt_mul_of_pos_right hlt (zpow_pos (by norm_num) _)

theorem le_toRat {d : Decimal} (h : d.coefficient ≠ 0) :
    (10 : Rat) ^ (d.magnitudeOrder - 1) ≤ d.toRat := by
  have hle : ((10 ^ (digitCount d.coefficient - 1) : Nat) : Rat) ≤ d.coefficient := by
    exact_mod_cast pow_digitCount_le h
  have hpos : 1 ≤ digitCount d.coefficient := by
    rw [← length_digits]
    exact List.length_pos_iff.2 (digits_ne_nil _)
  have hpow : (10 : Rat) ^ (d.magnitudeOrder - 1) =
      ((10 ^ (digitCount d.coefficient - 1) : Nat) : Rat) * 10 ^ d.exponent := by
    have hexp : d.magnitudeOrder - 1 =
        ((digitCount d.coefficient - 1 : Nat) : Int) + d.exponent := by
      unfold magnitudeOrder
      omega
    rw [hexp, zpow_add₀ (by norm_num), zpow_natCast]
    push_cast
    rfl
  rw [hpow]
  exact mul_le_mul_of_nonneg_right hle (zpow_pos (by norm_num) _).le

/-- **A place before the point that is not zero makes a value of one or more.** -/
theorem one_le_toRat_iff {d : Decimal} (h : d.coefficient ≠ 0) :
    1 ≤ d.toRat ↔ 0 < d.magnitudeOrder := by
  constructor
  · intro hone
    by_contra horder
    have hle : (10 : Rat) ^ d.magnitudeOrder ≤ 10 ^ (0 : Int) :=
      zpow_le_zpow_right₀ (by norm_num) (not_lt.1 horder)
    rw [zpow_zero] at hle
    exact absurd (lt_of_lt_of_le d.toRat_lt hle) (not_lt.2 hone)
  · intro horder
    have hle : (10 : Rat) ^ (0 : Int) ≤ 10 ^ (d.magnitudeOrder - 1) :=
      zpow_le_zpow_right₀ (by norm_num) (by omega)
    rw [zpow_zero] at hle
    exact hle.trans (le_toRat h)

/-- **Zeros at the end of the coefficient do not matter.** -/
theorem toRat_strip (d : Decimal) : d.strip.toRat = d.toRat := by
  fun_induction strip d with
  | case1 d h ih =>
      obtain ⟨k, hk⟩ := Nat.dvd_of_mod_eq_zero h.2
      have hk10 : d.coefficient / 10 = k := by omega
      rw [ih, toRat, toRat, hk10, hk, zpow_add₀ (by norm_num), zpow_one]
      push_cast
      ring
  | case2 d h => rfl

/-! ## 3. Places -/

theorem toRat_scaled (d : Decimal) :
    (d.scaled : Rat) * 10 ^ (-(d.fractionLength : Int)) = d.toRat := by
  have hpow : (10 : Rat) ^ d.exponent =
      10 ^ d.exponent.toNat * 10 ^ (-(d.fractionLength : Int)) := by
    rw [← zpow_natCast, ← zpow_add₀ (by norm_num)]
    congr 1
    unfold fractionLength
    omega
  have hscaled : (d.scaled : Rat) = d.coefficient * 10 ^ d.exponent.toNat := by
    have hnat : d.scaled = d.coefficient * 10 ^ d.exponent.toNat := rfl
    rw [hnat]
    push_cast
    rfl
  rw [toRat, hpow, hscaled]
  ring

/-- The places before and after the point are the digits of the scaled coefficient. -/
theorem digitsValue_places (d : Decimal) :
    digitsValue (d.wholeDigits ++ d.fractionDigits) = d.scaled := by
  rw [digitsValue_append, length_fractionDigits, wholeDigits, digitsValue_digits, fractionDigits,
    digitsValue_paddedDigits]
  exact Nat.div_add_mod' d.scaled (10 ^ d.fractionLength)

end Decimal

end Calculator

import Calculator.Number.Arithmetic
import Calculator.Proofs.Number.Decimal
import Calculator.Proofs.Number.Distance

/-!
# Quotients

A quotient is a product with a reciprocal, and both are rounded. A divisor has a reciprocal in the
range exactly if it is not too small (`Magnitude.exists_nearest?_inv`,
`Magnitude.nearest?_inv_eq_none`). The product of a divisor that is not too large with its
reciprocal is next to 1 (`Magnitude.abs_mul_sub_one_lt`), the product of any number with it next to
the quotient (`Magnitude.abs_mul_sub_div_le`). Main statements: `Number.divide_accurate`, how far a
quotient of doubles is from the exact one, and `Number.divide_isSoundQuotient_iff`, which quotients
are as they should be.
-/

namespace Calculator

/-! ## 1. Reciprocals -/

theorem two_zpow_le_inv {q : Rat} {k : Int} (hq : 0 < q) (h : q ≤ 2 ^ (-k)) : 2 ^ k ≤ q⁻¹ := by
  rw [zpow_neg] at h
  exact (le_inv_comm₀ (two_zpow_pos k) hq).2 h

namespace BinaryFormat

/-- The range of exponents is that of an interchange format, as far above as below. -/
structure IsBalanced (f : BinaryFormat) : Prop where
  three_le_precision : 3 ≤ f.precision
  exponents : f.minExponent + f.maxExponent + 2 * f.precision = 3

theorem isBalanced_binary64 : binary64.IsBalanced :=
  ⟨by decide, by decide⟩

end BinaryFormat

namespace Magnitude

variable {f : BinaryFormat} {a b r z : Magnitude f}

/-- **The reciprocal of a magnitude that is not too large is close to the exact one.** -/
theorem abs_sub_inv_lt {k : Int} (hk : 1 ≤ k) (hkp : k ≤ f.precision) (hb : 0 < b.toRat)
    (hle : b.toRat ≤ 2 ^ (-(f.minExponent + k - 1))) (hr : nearest? b.toRat⁻¹ = some r) :
    |r.toRat - b.toRat⁻¹| < 2 ^ (-k) * b.toRat⁻¹ :=
  abs_toRat_sub_lt_mul hk hkp (two_zpow_le_inv hb hle) hr

/-- **A product with a reciprocal is close to the quotient.** -/
theorem abs_mul_sub_div_le {k : Int} (hk : 1 ≤ k) (hkp : k ≤ f.precision) (hb : 0 < b.toRat)
    (hle : b.toRat ≤ 2 ^ (-(f.minExponent + k - 1))) (hr : nearest? b.toRat⁻¹ = some r)
    (a : Magnitude f) :
    |a.toRat * r.toRat - a.toRat / b.toRat| ≤ 2 ^ (-k) * (a.toRat / b.toRat) := by
  calc |a.toRat * r.toRat - a.toRat / b.toRat| = a.toRat * |r.toRat - b.toRat⁻¹| := by
        rw [div_eq_mul_inv, ← mul_sub, abs_mul, abs_of_nonneg a.toRat_nonneg]
    _ ≤ a.toRat * (2 ^ (-k) * b.toRat⁻¹) :=
        mul_le_mul_of_nonneg_left (abs_sub_inv_lt hk hkp hb hle hr).le a.toRat_nonneg
    _ = 2 ^ (-k) * (a.toRat / b.toRat) := by
        rw [div_eq_mul_inv]
        ring

/-- **A magnitude times its reciprocal is next to 1.** -/
theorem abs_mul_sub_one_lt {k : Int} (hk : 1 ≤ k) (hkp : k ≤ f.precision) (hb : 0 < b.toRat)
    (hle : b.toRat ≤ 2 ^ (-(f.minExponent + k - 1))) (hr : nearest? b.toRat⁻¹ = some r) :
    |b.toRat * r.toRat - 1| < 2 ^ (-k) := by
  calc |b.toRat * r.toRat - 1| = b.toRat * |r.toRat - b.toRat⁻¹| := by
        rw [← mul_inv_cancel₀ hb.ne', ← mul_sub, abs_mul, abs_of_pos hb]
    _ < b.toRat * (2 ^ (-k) * b.toRat⁻¹) :=
        mul_lt_mul_of_pos_left (abs_sub_inv_lt hk hkp hb hle hr) hb
    _ = 2 ^ (-k) := by
        rw [mul_left_comm, mul_inv_cancel₀ hb.ne', mul_one]

/-- Too small a magnitude has no reciprocal in the range. -/
theorem nearest?_inv_eq_none (hb : 0 < b.toRat)
    (h : b.toRat ≤ 2 ^ (-(f.maxExponent + f.precision))) :
    (nearest? b.toRat⁻¹ : Option (Magnitude f)) = none :=
  nearest?_eq_none (two_zpow_le_inv hb h)

/-- **A larger one has a reciprocal**: it is larger by a step, which is more than rounding adds. -/
theorem exists_nearest?_inv (hf : f.IsBalanced)
    (h : 2 ^ (-(f.maxExponent + f.precision)) < b.toRat) :
    ∃ r : Magnitude f, nearest? b.toRat⁻¹ = some r := by
  have hb : 0 < b.toRat := (two_zpow_pos _).trans h
  obtain ⟨n, hn⟩ := Nat.exists_eq_add_of_le hf.three_le_precision
  obtain ⟨m, hm⟩ := b.exists_toRat_eq
  have hrange := hf.exponents
  have hsteps : 2 ^ (f.maxExponent + f.precision) * b.toRat = m * 2 ^ (-(n : Int)) := by
    have hexponent : f.maxExponent + f.precision + f.minExponent = -(n : Int) := by omega
    rw [hm, mul_left_comm, ← zpow_add₀ two_ne_zero, hexponent]
  have hunit : (2 : Rat) ^ (-(f.precision : Int)) = 2 ^ (-(n : Int)) / 8 := by
    have hexponent : -(f.precision : Int) = -(n : Int) - 3 := by omega
    rw [hexponent, zpow_sub₀ two_ne_zero]
    norm_num
  have hpos := two_zpow_pos (-(n : Int))
  have hle : (2 : Rat) ^ (-(n : Int)) ≤ 1 := zpow_le_one_of_nonpos₀ one_le_two (by omega)
  have hmore : 1 + 2 ^ (-(n : Int)) ≤ 2 ^ (f.maxExponent + f.precision) * b.toRat := by
    have hlt : 1 < b.toRat * 2 ^ (f.maxExponent + f.precision) := by
      rw [zpow_neg] at h
      exact (inv_lt_iff_one_lt_mul₀ (two_zpow_pos _)).1 h
    rw [mul_comm, hsteps, zpow_neg, ← div_eq_mul_inv, one_lt_div (two_zpow_pos _),
      two_zpow_natCast] at hlt
    have hnext : ((2 ^ n : Nat) : Rat) + 1 ≤ m := by exact_mod_cast hlt
    calc 1 + 2 ^ (-(n : Int)) = (((2 ^ n : Nat) : Rat) + 1) * 2 ^ (-(n : Int)) := by
          rw [add_mul, one_mul, ← two_zpow_natCast, ← zpow_add₀ two_ne_zero, Int.add_right_neg,
            zpow_zero]
      _ ≤ m * 2 ^ (-(n : Int)) := mul_le_mul_of_nonneg_right hnext hpos.le
      _ = 2 ^ (f.maxExponent + f.precision) * b.toRat := hsteps.symm
  refine exists_nearest? ((inv_le_iff_one_le_mul₀ hb).2 ?_) (inv_nonneg.2 hb.le)
  calc 1 ≤ (1 - 2 ^ (-(n : Int)) / 8) * (1 + 2 ^ (-(n : Int))) := by nlinarith
    _ ≤ (1 - 2 ^ (-(n : Int)) / 8) * (2 ^ (f.maxExponent + f.precision) * b.toRat) :=
        mul_le_mul_of_nonneg_left hmore (by linarith)
    _ = (1 - 2 ^ (-(f.precision : Int))) * 2 ^ (f.maxExponent + f.precision) * b.toRat := by
        rw [hunit, mul_assoc]

/-! ## 2. Quotients -/

/-- **The product with a reciprocal is in the range if the quotient keeps away from its end.** -/
theorem exists_nearest?_mul (hf : f.IsBalanced) (hb : 0 < b.toRat)
    (hr : nearest? b.toRat⁻¹ = some r)
    (h : a.toRat / b.toRat ≤ 2 ^ (f.maxExponent + f.precision - 1)) :
    ∃ z : Magnitude f, nearest? (a.toRat * r.toRat) = some z := by
  have hp := hf.three_le_precision
  have hrange := hf.exponents
  -- every divisor leaves its reciprocal all digits but two
  have hle : b.toRat ≤ 2 ^ (-(f.minExponent + (f.precision - 2 : Int) - 1)) := by
    have hexponent : -(f.minExponent + (f.precision - 2 : Int) - 1) =
        f.maxExponent + f.precision := by omega
    rw [hexponent]
    exact b.toRat_lt.le
  have hpart : (2 : Rat) ^ (-(f.precision - 2 : Int)) = 4 * 2 ^ (-(f.precision : Int)) := by
    have hexponent : -(f.precision - 2 : Int) = 2 + -(f.precision : Int) := by omega
    rw [hexponent, zpow_add₀ two_ne_zero]
    norm_num
  have hsmall : (2 : Rat) ^ (-(f.precision : Int)) ≤ 1 / 8 := by
    calc (2 : Rat) ^ (-(f.precision : Int)) ≤ 2 ^ (-3 : Int) :=
          zpow_le_zpow_right₀ one_le_two (by omega)
      _ = 1 / 8 := by norm_num
  have hunit := two_zpow_pos (-(f.precision : Int))
  have hpos := two_zpow_pos (f.maxExponent + f.precision - 1)
  have herror := (abs_le.1 (abs_mul_sub_div_le (by omega) (by omega) hb hle hr a)).2
  rw [hpart] at herror
  have hdouble : (2 : Rat) ^ (f.maxExponent + f.precision) =
      2 * 2 ^ (f.maxExponent + f.precision - 1) := by
    rw [zpow_sub_one₀ two_ne_zero]
    ring
  refine exists_nearest? ?_ (mul_nonneg a.toRat_nonneg r.toRat_nonneg)
  calc a.toRat * r.toRat ≤ (1 + 4 * 2 ^ (-(f.precision : Int))) * (a.toRat / b.toRat) := by linarith
    _ ≤ (1 + 4 * 2 ^ (-(f.precision : Int))) * 2 ^ (f.maxExponent + f.precision - 1) :=
        mul_le_mul_of_nonneg_left h (by linarith)
    _ ≤ (2 * (1 - 2 ^ (-(f.precision : Int)))) * 2 ^ (f.maxExponent + f.precision - 1) :=
        mul_le_mul_of_nonneg_right (by linarith) hpos.le
    _ = (1 - 2 ^ (-(f.precision : Int))) * 2 ^ (f.maxExponent + f.precision) := by
        rw [hdouble]
        ring

/-- **Two roundings**: away from the ends of the range the quotient is found but for the part of it
    that two last digits make up. -/
theorem abs_nearest?_mul_sub_div_le (hb : 0 < b.toRat)
    (hle : b.toRat ≤ 2 ^ (-(f.minExponent + f.precision - 1)))
    (hr : nearest? b.toRat⁻¹ = some r)
    (hlow : 2 ^ (f.minExponent + f.precision) ≤ a.toRat / b.toRat)
    (hz : nearest? (a.toRat * r.toRat) = some z) :
    |z.toRat - a.toRat / b.toRat| ≤
      (2 ^ (1 - f.precision : Int) + 2 ^ (-(2 * f.precision) : Int)) * (a.toRat / b.toRat) := by
  have hp := f.two_le_precision
  have hsmall : (2 : Rat) ^ (-(f.precision : Int)) ≤ 1 / 2 := by
    calc (2 : Rat) ^ (-(f.precision : Int)) ≤ 2 ^ (-1 : Int) :=
          zpow_le_zpow_right₀ one_le_two (by omega)
      _ = 1 / 2 := by norm_num
  have hpos := two_zpow_pos (-(f.precision : Int))
  have hquotient : 0 < a.toRat / b.toRat := (two_zpow_pos _).trans_le hlow
  have hproduct := abs_mul_sub_div_le (by omega) (Int.le_refl _) hb hle hr a
  obtain ⟨hbelow, habove⟩ := abs_le.1 hproduct
  have hhalf : (2 : Rat) ^ (f.minExponent + f.precision - 1) ≤ a.toRat * r.toRat := by
    calc (2 : Rat) ^ (f.minExponent + f.precision - 1)
        = 1 / 2 * 2 ^ (f.minExponent + f.precision) := by
          rw [zpow_sub_one₀ two_ne_zero]
          ring
      _ ≤ (1 - 2 ^ (-(f.precision : Int))) * (a.toRat / b.toRat) :=
          mul_le_mul (by linarith) hlow (two_zpow_pos _).le (by linarith)
      _ ≤ a.toRat * r.toRat := by linarith
  have hrounded := abs_toRat_sub_lt_mul (by omega) (Int.le_refl _) hhalf hz
  have hdouble : (2 : Rat) ^ (1 - f.precision : Int) = 2 * 2 ^ (-(f.precision : Int)) := by
    rw [sub_eq_add_neg, zpow_add₀ two_ne_zero, zpow_one]
  have hsquare : (2 : Rat) ^ (-(2 * f.precision) : Int) =
      2 ^ (-(f.precision : Int)) * 2 ^ (-(f.precision : Int)) := by
    rw [← zpow_add₀ two_ne_zero]
    congr 1
    omega
  calc |z.toRat - a.toRat / b.toRat|
      ≤ |z.toRat - a.toRat * r.toRat| + |a.toRat * r.toRat - a.toRat / b.toRat| :=
        abs_sub_le _ _ _
    _ ≤ 2 ^ (-(f.precision : Int)) * ((1 + 2 ^ (-(f.precision : Int))) * (a.toRat / b.toRat)) +
          2 ^ (-(f.precision : Int)) * (a.toRat / b.toRat) := by
        refine add_le_add (hrounded.le.trans (mul_le_mul_of_nonneg_left ?_ hpos.le)) hproduct
        linarith
    _ = (2 ^ (1 - f.precision : Int) + 2 ^ (-(2 * f.precision) : Int)) *
          (a.toRat / b.toRat) := by
        rw [hdouble, hsquare]
        ring

end Magnitude

/-! ## 3. Numbers -/

namespace Number

variable {f : BinaryFormat} {s t : Bool} {a b r : Magnitude f}

theorem reciprocal_finite (hb : 0 < b.toRat) :
    (finite t b).reciprocal = .ok (ofRat t b.toRat⁻¹) := by
  have hne : b.isZero = false := by
    rw [← Bool.not_eq_true, ← Magnitude.toRat_eq_zero_iff]
    exact hb.ne'
  rw [reciprocal, hne]
  rfl

/-- **The quotient of finite numbers whose divisor has a reciprocal.** -/
theorem divide_finite (hb : 0 < b.toRat) (hr : Magnitude.nearest? b.toRat⁻¹ = some r) :
    (finite s a).divide (finite t b) = .ok (ofRat (s ^^ t) (a.toRat * r.toRat)) := by
  rw [divide, reciprocal_finite hb, ofRat_of_nearest? hr]
  rfl

/-- **A divisor without a reciprocal makes every quotient infinite**, that of a zero no number. -/
theorem divide_finite_of_nearest?_eq_none (hb : 0 < b.toRat)
    (hr : (Magnitude.nearest? b.toRat⁻¹ : Option (Magnitude f)) = none) :
    (finite s a).divide (finite t b) = .ok (if a.isZero then .nan else .infinite (s ^^ t)) := by
  rw [divide, reciprocal_finite hb, ofRat, hr]
  rfl

/-- **The double quotient is accurate away from the ends of the range.** A divisor times its
    reciprocal is 1 or the double before 1, and a quotient is off by at most two roundings. -/
theorem divide_accurate {y : Double} {q : Rat} (hy : y.toRat? = some q)
    (hlow : (2 : Rat) ^ (-1022 : Int) ≤ |q|) (hhigh : |q| ≤ (2 : Rat) ^ (1022 : Int)) :
    (∃ r, y.reciprocal = .ok r ∧
      ((y.multiply r).toRat? = some 1 ∨ (y.multiply r).toRat? = some (1 - 2 ^ (-53 : Int)))) ∧
    ∀ (x : Double) p, x.toRat? = some p → (2 : Rat) ^ (-1021 : Int) ≤ |p / q| →
      |p / q| ≤ (2 : Rat) ^ (1023 : Int) →
      ∃ z v, x.divide y = .ok z ∧ z.toRat? = some v ∧
        |v - p / q| ≤ (2 ^ (-52 : Int) + 2 ^ (-106 : Int)) * |p / q| := by
  obtain ⟨t, b, rfl, rfl⟩ := toRat?_eq_some_iff.1 hy
  rw [abs_signed_toRat] at hlow hhigh
  have hb : 0 < b.toRat := (two_zpow_pos _).trans_le hlow
  obtain ⟨r, hr⟩ := Magnitude.exists_nearest?_inv BinaryFormat.isBalanced_binary64
    ((zpow_lt_zpow_right₀ one_lt_two (by decide)).trans_le hlow)
  refine ⟨⟨ofRat t b.toRat⁻¹, reciprocal_finite hb, ?_⟩, fun x p hx hquotient hquotient' => ?_⟩
  · have hone := Magnitude.abs_mul_sub_one_lt (by decide) (Int.le_refl _) hb hhigh hr
    obtain ⟨c, hc, hvalue⟩ := Magnitude.exists_nearest?_near_one (by decide) (by decide) hone
    rw [ofRat_of_nearest? hr, multiply, ofRat_of_nearest? hc, toRat?_finite, Bool.xor_self]
    exact hvalue.imp (congrArg some) (congrArg some)
  · obtain ⟨s, a, rfl, rfl⟩ := toRat?_eq_some_iff.1 hx
    rw [abs_signed_div_signed] at hquotient hquotient' ⊢
    obtain ⟨z, hz⟩ :=
      Magnitude.exists_nearest?_mul BinaryFormat.isBalanced_binary64 hb hr hquotient'
    refine ⟨.finite (s ^^ t) z, signed (s ^^ t) z.toRat, ?_, toRat?_finite _ _, ?_⟩
    · rw [divide_finite hb hr, ofRat_of_nearest? hz]
    · rw [signed_div, signed_sub, abs_signed]
      exact Magnitude.abs_nearest?_mul_sub_div_le hb hhigh hr hquotient hz

/-- The bounds admit -49. -/
theorem divide_accurate_minus_forty_nine :
    let y : Double := .finite true ⟨49 * 2 ^ 47, -47, by decide⟩
    y.toRat? = some (-49) ∧ (2 : Rat) ^ (-1022 : Int) ≤ |-49| ∧ |-49| ≤ (2 : Rat) ^ (1022 : Int) ∧
    (∃ r, y.reciprocal = .ok r ∧
      ((y.multiply r).toRat? = some 1 ∨ (y.multiply r).toRat? = some (1 - 2 ^ (-53 : Int)))) ∧
    ∀ (x : Double) p, x.toRat? = some p → (2 : Rat) ^ (-1021 : Int) ≤ |p / -49| →
      |p / -49| ≤ (2 : Rat) ^ (1023 : Int) →
      ∃ z v, x.divide y = .ok z ∧ z.toRat? = some v ∧
        |v - p / -49| ≤ (2 ^ (-52 : Int) + 2 ^ (-106 : Int)) * |p / -49| := by
  intro y
  have hy : y.toRat? = some (-49) := by
    simp only [y, toRat?_finite, signed, Magnitude.toRat]
    norm_num
  have habs : |(-49 : Rat)| = 49 := by norm_num
  have hlow : (2 : Rat) ^ (-1022 : Int) ≤ |-49| := by
    rw [habs]
    exact (zpow_le_one_of_nonpos₀ one_le_two (by decide)).trans (by norm_num)
  have hhigh : |-49| ≤ (2 : Rat) ^ (1022 : Int) := by
    calc |(-49 : Rat)| ≤ 2 ^ (6 : Int) := by norm_num
      _ ≤ 2 ^ (1022 : Int) := zpow_le_zpow_right₀ one_le_two (by decide)
  exact ⟨hy, hlow, hhigh, divide_accurate hy hlow hhigh⟩

/-! ## 4. What becomes of a quotient -/

theorem ofRat_ne_nan (negative : Bool) (q : Rat) : (ofRat negative q : Number f) ≠ .nan := by
  unfold ofRat
  split <;> simp

/-- What is expected of the quotient of two finite doubles: it is a number, a zero has a zero as
    quotient, and a quotient that keeps away from the end of the range is finite. -/
structure IsSoundQuotient (p q : Rat) (z : Double) : Prop where
  ne_nan : z ≠ .nan
  isZero : p = 0 → z.isZero = true
  isFinite : |p / q| ≤ (2 : Rat) ^ (1023 : Int) → z.isFinite = true

section

variable {s t : Bool} {a b r : Magnitude .binary64}

theorem isSoundQuotient_of_nearest? (hb : 0 < b.toRat)
    (hr : Magnitude.nearest? b.toRat⁻¹ = some r) :
    IsSoundQuotient (signed s a.toRat) (signed t b.toRat) (ofRat (s ^^ t) (a.toRat * r.toRat)) where
  ne_nan := ofRat_ne_nan _ _
  isZero hp := by
    rw [signed_eq_zero_iff.1 hp, zero_mul, ofRat_zero]
    rfl
  isFinite hle := by
    rw [abs_signed_div_signed] at hle
    obtain ⟨z, hz⟩ := Magnitude.exists_nearest?_mul BinaryFormat.isBalanced_binary64 hb hr hle
    rw [ofRat_of_nearest? hz]
    rfl

/-- Without a reciprocal only an infinite quotient is as expected, and only where the exact one is
    beyond the range, too. -/
theorem isSoundQuotient_infinite_iff {q : Rat} :
    IsSoundQuotient (signed s a.toRat) q (if a.isZero then .nan else .infinite t) ↔
      signed s a.toRat ≠ 0 ∧ (2 : Rat) ^ (1023 : Int) < |signed s a.toRat / q| := by
  rw [Ne, signed_eq_zero_iff, Magnitude.toRat_eq_zero_iff]
  cases ha : a.isZero with
  | true => simpa using fun h : IsSoundQuotient _ q .nan => h.ne_nan rfl
  | false =>
      have hne : signed s a.toRat ≠ 0 := by
        rw [Ne, signed_eq_zero_iff, Magnitude.toRat_eq_zero_iff, ha]
        exact Bool.false_ne_true
      constructor
      · intro h
        exact ⟨Bool.false_ne_true, not_le.1 fun hle => Bool.false_ne_true (h.isFinite hle)⟩
      · intro ⟨_, hlarge⟩
        exact ⟨by simp, fun h => absurd h hne, fun hle => absurd hlarge (not_lt.2 hle)⟩

end

/-- **Which quotients are as expected**: those of divisors that are not too small, and those that
    are beyond the end of the range anyway. -/
theorem divide_isSoundQuotient_iff {x y : Double} {p q : Rat} (hx : x.toRat? = some p)
    (hy : y.toRat? = some q) (hq : q ≠ 0) :
    ∃ z, x.divide y = .ok z ∧
      (IsSoundQuotient p q z ↔
        (2 : Rat) ^ (-1024 : Int) < |q| ∨ p ≠ 0 ∧ (2 : Rat) ^ (1023 : Int) < |p / q|) := by
  obtain ⟨s, a, rfl, rfl⟩ := toRat?_eq_some_iff.1 hx
  obtain ⟨t, b, rfl, rfl⟩ := toRat?_eq_some_iff.1 hy
  have hb : 0 < b.toRat := by
    rw [Ne, signed_eq_zero_iff] at hq
    exact lt_of_le_of_ne b.toRat_nonneg (Ne.symm hq)
  rw [abs_signed_toRat]
  rcases le_or_gt b.toRat ((2 : Rat) ^ (-1024 : Int)) with hsmall | hlarge
  · refine ⟨_, divide_finite_of_nearest?_eq_none hb (Magnitude.nearest?_inv_eq_none hb hsmall), ?_⟩
    rw [isSoundQuotient_infinite_iff]
    exact (or_iff_right (not_lt.2 hsmall)).symm
  · obtain ⟨r, hr⟩ := Magnitude.exists_nearest?_inv BinaryFormat.isBalanced_binary64 hlarge
    exact ⟨_, divide_finite hb hr, fun _ => .inl hlarge, fun _ => isSoundQuotient_of_nearest? hb hr⟩

end Number

end Calculator

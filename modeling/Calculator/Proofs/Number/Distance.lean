import Calculator.Number
import Calculator.Proofs.Number.Rounding

/-!
# How far rounding goes

The nearest whole number is at most a half away (`abs_nearestEven_sub_le`), so a value is rounded by
at most half a step (`abs_toRat_sub_le`). A step is small beside a value that is not near the end of
the exponent range: `abs_toRat_sub_lt_mul` bounds the error by the part of the value that the number
of its digits gives. A value up to the largest magnitude has a nearest magnitude
(`exists_nearest?`), and one that is next to 1 is rounded to 1 or to the magnitude before it
(`exists_nearest?_near_one`). The sign of a number is apart from all this (`Number.signed_sub`,
`Number.signed_div`).
-/

namespace Calculator

/-- **The nearest whole number is at most a half away.** -/
theorem abs_nearestEven_sub_le {q : Rat} (hq : 0 ≤ q) : |(nearestEven q : Rat) - q| ≤ 1 / 2 := by
  obtain ⟨n, hn⟩ := Int.eq_ofNat_of_zero_le (Int.floor_nonneg.2 hq)
  have hlow : (n : Rat) ≤ q := by
    have hfloor := Int.floor_le q
    rw [hn] at hfloor
    exact_mod_cast hfloor
  have hhigh : q < n + 1 := by
    have hfloor := Int.lt_floor_add_one q
    rw [hn] at hfloor
    exact_mod_cast hfloor
  have hwhole : q.floor.toNat = n := by
    have hfloor : q.floor = n := hn
    omega
  dsimp only [nearestEven]
  rw [hwhole, abs_le]
  split
  · constructor <;> linarith
  · split
    · push_cast
      constructor <;> linarith
    · split
      · constructor <;> linarith
      · push_cast
        constructor <;> linarith

namespace Magnitude

variable {f : BinaryFormat} {a : Magnitude f} {q : Rat}

/-! ## 1. The error -/

/-- **A value is rounded by at most half a step.** -/
theorem abs_toRat_sub_le (hq : 0 < q) (h : nearest? q = some a) :
    |a.toRat - q| ≤ 2 ^ (roundingExponent f q - 1) := by
  have hpos := two_zpow_pos (roundingExponent f q)
  have hsteps : q = q * 2 ^ (-roundingExponent f q) * 2 ^ roundingExponent f q := by
    rw [mul_assoc, ← zpow_add₀ two_ne_zero, Int.add_left_neg, zpow_zero, mul_one]
  have hnonneg : 0 ≤ q * 2 ^ (-roundingExponent f q) := mul_nonneg hq.le (two_zpow_pos _).le
  calc |a.toRat - q|
      = |(nearestEven (q * 2 ^ (-roundingExponent f q)) : Rat) -
          q * 2 ^ (-roundingExponent f q)| * 2 ^ roundingExponent f q := by
        rw [toRat_of_nearest? hq.ne' h, ← abs_of_pos hpos, ← abs_mul, abs_of_pos hpos, sub_mul,
          ← hsteps]
    _ ≤ 1 / 2 * 2 ^ roundingExponent f q :=
        mul_le_mul_of_nonneg_right (abs_nearestEven_sub_le hnonneg) hpos.le
    _ = 2 ^ (roundingExponent f q - 1) := by
        rw [zpow_sub₀ two_ne_zero, zpow_one]
        ring

/-- **A value with room for `k` digits is rounded by less than its part of that size**; a power of
    two is not rounded at all. -/
theorem abs_toRat_sub_lt_mul {k : Int} (hk : 1 ≤ k) (hkp : k ≤ f.precision)
    (hq : 2 ^ (f.minExponent + k - 1) ≤ q) (h : nearest? q = some a) :
    |a.toRat - q| < 2 ^ (-k) * q := by
  have hpos : 0 < q := lt_of_lt_of_le (two_zpow_pos _) hq
  have horder : f.minExponent + k - 1 ≤ binaryOrder q := (le_binaryOrder_iff hpos).2 hq
  have hself : (2 : Rat) ^ binaryOrder q ≤ q := (le_binaryOrder_iff hpos).1 (Int.le_refl _)
  rcases eq_or_lt_of_le hself with hpower | hlt
  · have hmin : f.minExponent ≤ binaryOrder q := by omega
    have hsame : a.toRat = q :=
      le_antisymm ((toRat_le_of_nearest? hpos.le hmin hpower.ge h).trans hself)
        (hpower.ge.trans (le_toRat_of_nearest? hmin hself h))
    rw [hsame, sub_self, abs_zero]
    exact mul_pos (two_zpow_pos _) hpos
  · have hexponent : roundingExponent f q - 1 ≤ -k + binaryOrder q := by
      unfold roundingExponent
      omega
    calc |a.toRat - q| ≤ 2 ^ (roundingExponent f q - 1) := abs_toRat_sub_le hpos h
      _ ≤ 2 ^ (-k + binaryOrder q) := zpow_le_zpow_right₀ one_le_two hexponent
      _ = 2 ^ (-k) * 2 ^ binaryOrder q := zpow_add₀ two_ne_zero _ _
      _ < 2 ^ (-k) * q := mul_lt_mul_of_pos_left hlt (two_zpow_pos _)

/-! ## 2. The range -/

/-- A magnitude is a whole number of the least steps. -/
theorem exists_toRat_eq (a : Magnitude f) : ∃ n : Nat, a.toRat = n * 2 ^ f.minExponent := by
  obtain ⟨k, hk⟩ := Int.eq_ofNat_of_zero_le (Int.sub_nonneg_of_le a.canonical.2.1)
  have hexponent : a.exponent = k + f.minExponent := by omega
  refine ⟨a.significand * 2 ^ k, ?_⟩
  rw [toRat, hexponent, zpow_add₀ two_ne_zero, zpow_natCast]
  push_cast
  ring

theorem toRat_lt (a : Magnitude f) : a.toRat < 2 ^ (f.maxExponent + f.precision) := by
  obtain ⟨hlt, -, hmax, -⟩ := a.canonical
  have hsignificand : (a.significand : Rat) < 2 ^ (f.precision : Int) := by
    rw [← f.bound_eq_zpow]
    exact_mod_cast hlt
  calc a.toRat < 2 ^ (f.precision : Int) * 2 ^ a.exponent :=
        mul_lt_mul_of_pos_right hsignificand (two_zpow_pos _)
    _ ≤ 2 ^ (f.precision : Int) * 2 ^ f.maxExponent :=
        mul_le_mul_of_nonneg_left (zpow_le_zpow_right₀ one_le_two hmax) (two_zpow_pos _).le
    _ = 2 ^ (f.maxExponent + f.precision) := by
        rw [zpow_add₀ two_ne_zero, mul_comm]

theorem exists_ofParts? {m : Nat} {e : Int} (h : f.Canonical m e) :
    ∃ a : Magnitude f, ofParts? m e = some a :=
  ⟨⟨m, e, h⟩, dif_pos h⟩

section

variable (h : q ≤ (1 - 2 ^ (-(f.precision : Int))) * 2 ^ (f.maxExponent + f.precision))
include h

theorem binaryOrder_lt_of_le_largest (hq : 0 < q) :
    binaryOrder q < f.maxExponent + f.precision := by
  have hpart := two_zpow_pos (-(f.precision : Int))
  refine (binaryOrder_lt_iff hq).2 (h.trans_lt ?_)
  exact mul_lt_of_lt_one_left (two_zpow_pos _) (by linarith)

/-- Up to the largest magnitude there is no carry at the largest exponent. -/
theorem nearestEven_lt_bound_of_le_largest :
    nearestEven (q * 2 ^ (-f.maxExponent)) < f.bound := by
  have hpos := f.bound_pos
  have hsteps : q ≤ ((f.bound - 1 : Nat) : Rat) * 2 ^ f.maxExponent := by
    refine h.trans_eq ?_
    rw [Nat.cast_sub hpos, f.bound_eq_zpow, add_comm f.maxExponent, zpow_add₀ two_ne_zero, zpow_neg]
    field_simp
    norm_num
  have hle := nearestEven_steps_le hsteps
  omega

/-- **A value up to the largest magnitude has a nearest one.** -/
theorem exists_nearest? (h0 : 0 ≤ q) : ∃ a : Magnitude f, nearest? q = some a := by
  rcases eq_or_lt_of_le h0 with rfl | hq
  · exact ⟨zero, nearest?_zero⟩
  have hp := f.two_le_precision
  have hrange := f.minExponent_le
  have hself : (2 : Rat) ^ binaryOrder q ≤ q := (le_binaryOrder_iff hq).1 (Int.le_refl _)
  have hnext : q < 2 ^ (binaryOrder q + 1) := (binaryOrder_lt_iff hq).1 (Int.lt_succ _)
  have horder := binaryOrder_lt_of_le_largest h hq
  have hexponent : f.minExponent ≤ roundingExponent f q ∧ roundingExponent f q ≤ f.maxExponent ∧
      binaryOrder q + 1 ≤ f.precision + roundingExponent f q ∧
      (roundingExponent f q = f.minExponent ∨
        (f.precision : Int) - 1 + roundingExponent f q = binaryOrder q) := by
    unfold roundingExponent
    omega
  obtain ⟨hmin, hmax, hupper, hlower⟩ := hexponent
  have hbound : nearestEven (q * 2 ^ (-roundingExponent f q)) ≤ f.bound := by
    refine nearestEven_steps_le ?_
    rw [f.bound_eq_zpow, ← zpow_add₀ two_ne_zero]
    exact hnext.le.trans (zpow_le_zpow_right₀ one_le_two hupper)
  simp only [nearest?, hq.ne', if_false]
  split
  · next hcarry =>
      have hfull : f.leastFull < f.bound := by
        have hpos := f.bound_pos
        have hdouble := f.bound_eq
        omega
      have hless : roundingExponent f q ≠ f.maxExponent := by
        intro heq
        rw [heq] at hcarry
        exact absurd hcarry (nearestEven_lt_bound_of_le_largest h).ne
      exact exists_ofParts? ⟨hfull, by omega, by omega, .inl (Nat.le_refl _)⟩
  · next hne =>
      refine exists_ofParts? ⟨by omega, hmin, hmax, ?_⟩
      rcases hlower with hleast | hfull
      · exact .inr hleast
      · refine .inl (le_nearestEven_steps ?_)
        rw [f.leastFull_eq, ← zpow_add₀ two_ne_zero, hfull]
        exact hself

end

/-! ## 3. Next to one -/

/-- From 1 upward the steps are so large that 1 is the nearest. -/
theorem toRat_eq_one (hmin : f.minExponent ≤ -(f.precision : Int)) (hone : 1 ≤ q)
    (habove : q < 1 + 2 ^ (-(f.precision : Int))) (ha : nearest? q = some a) : a.toRat = 1 := by
  have hp := f.two_le_precision
  have hq : 0 < q := zero_lt_one.trans_le hone
  have hunit : (2 : Rat) ^ (-(f.precision : Int)) < 1 := zpow_lt_one_of_neg₀ one_lt_two (by omega)
  have horder : binaryOrder q = 0 := by
    have hle : 0 ≤ binaryOrder q := (le_binaryOrder_iff hq).2 (by simpa using hone)
    have hlt : binaryOrder q < 1 := (binaryOrder_lt_iff hq).2 (by rw [zpow_one]; linarith)
    omega
  have hexponent : roundingExponent f q = -((f.precision : Int) - 1) := by
    unfold roundingExponent
    omega
  have hpow : (2 : Rat) ^ (-(-((f.precision : Int) - 1))) = f.leastFull := by
    rw [Int.neg_neg, f.leastFull_eq]
  have hhalf : (2 : Rat) ^ (-(f.precision : Int)) * f.leastFull = 1 / 2 := by
    have hminus : -(f.precision : Int) + ((f.precision : Int) - 1) = -1 := by omega
    rw [f.leastFull_eq, ← zpow_add₀ two_ne_zero, hminus]
    norm_num
  have hfull : (0 : Rat) < f.leastFull := by exact_mod_cast f.leastFull_pos
  have hlow : (f.leastFull : Rat) ≤ q * f.leastFull := le_mul_of_one_le_left hfull.le hone
  have hhigh : q * f.leastFull < f.leastFull + 1 / 2 := by
    calc q * f.leastFull < (1 + 2 ^ (-(f.precision : Int))) * f.leastFull :=
          mul_lt_mul_of_pos_right habove hfull
      _ = f.leastFull + 1 / 2 := by rw [add_mul, one_mul, hhalf]
  have hsteps : nearestEven (q * f.leastFull) = f.leastFull := by
    have herror := (abs_le.1 (abs_nearestEven_sub_le (hfull.le.trans hlow))).2
    have hlt : (nearestEven (q * f.leastFull) : Rat) < ((f.leastFull + 1 : Nat) : Rat) := by
      push_cast
      linarith
    have hlt : nearestEven (q * f.leastFull) < f.leastFull + 1 := by exact_mod_cast hlt
    have hle := le_nearestEven hlow
    omega
  rw [toRat_of_nearest? hq.ne' ha, hexponent, hpow, hsteps, f.leastFull_eq, ← zpow_add₀ two_ne_zero,
    Int.add_right_neg, zpow_zero]

/-- Below 1 the steps are half as large, and the value lies between two magnitudes. -/
theorem toRat_below_one (hmin : f.minExponent ≤ -(f.precision : Int)) (hone : q < 1)
    (hbelow : 1 - 2 ^ (-(f.precision : Int)) < q) (ha : nearest? q = some a) :
    a.toRat = 1 ∨ a.toRat = 1 - 2 ^ (-(f.precision : Int)) := by
  have hp := f.two_le_precision
  have hpos := f.bound_pos
  have hhalf : (2 : Rat) ^ (-(f.precision : Int)) ≤ 2 ^ (-1 : Int) :=
    zpow_le_zpow_right₀ one_le_two (by omega)
  have hhalf' : (1 : Rat) - 2 ^ (-1 : Int) = 2 ^ (-1 : Int) := by norm_num
  have hlower : (2 : Rat) ^ (-1 : Int) ≤ q := by linarith
  have hq : 0 < q := (two_zpow_pos _).trans_le hlower
  have horder : binaryOrder q = -1 := by
    have hle : -1 ≤ binaryOrder q := (le_binaryOrder_iff hq).2 hlower
    have hlt : binaryOrder q < 0 := (binaryOrder_lt_iff hq).2 (by simpa using hone)
    omega
  have hexponent : roundingExponent f q = -(f.precision : Int) := by
    unfold roundingExponent
    omega
  have hpow : (2 : Rat) ^ (-(-(f.precision : Int))) = f.bound := by
    rw [Int.neg_neg, f.bound_eq_zpow]
  have hunit : (f.bound : Rat) * 2 ^ (-(f.precision : Int)) = 1 := by
    rw [f.bound_eq_zpow, ← zpow_add₀ two_ne_zero, Int.add_right_neg, zpow_zero]
  have hfull : (0 : Rat) < f.bound := by exact_mod_cast hpos
  have hlow : ((f.bound - 1 : Nat) : Rat) ≤ q * f.bound := by
    calc ((f.bound - 1 : Nat) : Rat) = (1 - 2 ^ (-(f.precision : Int))) * f.bound := by
          rw [Nat.cast_sub hpos, sub_mul, mul_comm ((2 : Rat) ^ _), hunit, one_mul, Nat.cast_one]
      _ ≤ q * f.bound := mul_le_mul_of_nonneg_right hbelow.le hfull.le
  have hhigh : q * f.bound ≤ f.bound := mul_le_of_le_one_left hfull.le hone.le
  have hle := le_nearestEven hlow
  have hge := nearestEven_le hhigh
  rw [toRat_of_nearest? hq.ne' ha, hexponent, hpow]
  obtain hsteps | hsteps : nearestEven (q * f.bound) = f.bound ∨
      nearestEven (q * f.bound) = f.bound - 1 := by omega
  · left
    rw [hsteps, hunit]
  · right
    rw [hsteps, Nat.cast_sub hpos, Nat.cast_one, sub_mul, hunit, one_mul]

/-- **A value next to 1 is rounded to 1 or to the magnitude before it**, which is half as far as the
    one behind it. -/
theorem exists_nearest?_near_one (hmin : f.minExponent ≤ -(f.precision : Int))
    (hmax : 0 < f.maxExponent + f.precision) (h : |q - 1| < 2 ^ (-(f.precision : Int))) :
    ∃ a : Magnitude f, nearest? q = some a ∧
      (a.toRat = 1 ∨ a.toRat = 1 - 2 ^ (-(f.precision : Int))) := by
  obtain ⟨hbelow, habove⟩ := abs_lt.1 h
  have hp := f.two_le_precision
  have hquarter : (2 : Rat) ^ (-(f.precision : Int)) ≤ 1 / 4 := by
    calc (2 : Rat) ^ (-(f.precision : Int)) ≤ 2 ^ (-2 : Int) :=
          zpow_le_zpow_right₀ one_le_two (by omega)
      _ = 1 / 4 := by norm_num
  have hdouble : (2 : Rat) ^ (1 : Int) ≤ 2 ^ (f.maxExponent + f.precision) :=
    zpow_le_zpow_right₀ one_le_two (by omega)
  have hlargest : q ≤ (1 - 2 ^ (-(f.precision : Int))) * 2 ^ (f.maxExponent + f.precision) := by
    calc q ≤ (1 - 2 ^ (-(f.precision : Int))) * 2 ^ (1 : Int) := by
          rw [zpow_one]
          linarith
      _ ≤ (1 - 2 ^ (-(f.precision : Int))) * 2 ^ (f.maxExponent + f.precision) :=
          mul_le_mul_of_nonneg_left hdouble (by linarith)
  obtain ⟨a, ha⟩ := exists_nearest? hlargest (by linarith)
  refine ⟨a, ha, ?_⟩
  rcases le_or_gt 1 q with hone | hone
  · exact .inl (toRat_eq_one hmin hone (by linarith) ha)
  · exact toRat_below_one hmin hone (by linarith) ha

end Magnitude

/-! ## 4. Signed values -/

namespace Number

variable {f : BinaryFormat}

theorem abs_signed (negative : Bool) (q : Rat) : |signed negative q| = |q| := by
  cases negative with
  | false => rfl
  | true => exact abs_neg q

theorem abs_signed_toRat (negative : Bool) (a : Magnitude f) :
    |signed negative a.toRat| = a.toRat := by
  rw [abs_signed, abs_of_nonneg a.toRat_nonneg]

theorem abs_signed_div_signed (s t : Bool) (a b : Magnitude f) :
    |signed s a.toRat / signed t b.toRat| = a.toRat / b.toRat := by
  rw [abs_div, abs_signed_toRat, abs_signed_toRat]

theorem signed_eq_zero_iff {negative : Bool} {q : Rat} : signed negative q = 0 ↔ q = 0 := by
  rw [← abs_eq_zero, abs_signed, abs_eq_zero]

theorem signed_sub (negative : Bool) (p q : Rat) :
    signed negative p - signed negative q = signed negative (p - q) := by
  cases negative with
  | false => rfl
  | true =>
      show -p - -q = -(p - q)
      ring

theorem signed_div (s t : Bool) (p q : Rat) :
    signed s p / signed t q = signed (s ^^ t) (p / q) := by
  cases s <;> cases t <;> simp [signed, neg_div, div_neg]

theorem toRat?_finite (negative : Bool) (a : Magnitude f) :
    (finite negative a).toRat? = some (signed negative a.toRat) :=
  rfl

/-- A number with an exact value is finite. -/
theorem toRat?_eq_some_iff {x : Number f} {q : Rat} :
    x.toRat? = some q ↔ ∃ negative a, x = .finite negative a ∧ q = signed negative a.toRat := by
  cases x <;> simp [toRat?, eq_comm]

end Number

end Calculator

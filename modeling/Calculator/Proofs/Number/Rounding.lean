import Calculator.Number.Rounding
import Mathlib.Data.Int.Log
import Mathlib.Data.Rat.Floor
import Mathlib.Tactic.Linarith
import Mathlib.Tactic.Positivity
import Mathlib.Tactic.Ring

/-!
# What rounding keeps

Rounding to a format leaves its magnitudes as they are (`nearest?_toRat`) and does not cross a power
of two (`toRat_le_of_nearest?`, `le_toRat_of_nearest?`). From the end of the format's range upward
there is no nearest magnitude (`nearest?_eq_none`), below half of the smallest one it is zero
(`nearest?_eq_zero`).
-/

namespace Calculator

/-! ## 1. Whole numbers -/

theorem nearestEven_natCast (n : Nat) : nearestEven n = n := by
  have hfloor : (n : Rat).floor.toNat = n := by
    have : (n : Rat).floor = ((n : Nat) : Int) := Int.floor_natCast (R := Rat) n
    omega
  simp [nearestEven, hfloor]

/-- A value that is at least a whole number is rounded to at least that number. -/
theorem le_nearestEven {n : Nat} {q : Rat} (h : (n : Rat) ≤ q) : n ≤ nearestEven q := by
  have hfloor : n ≤ q.floor.toNat := by
    have : (n : Int) ≤ q.floor := Int.le_floor.2 (by exact_mod_cast h)
    omega
  dsimp only [nearestEven]
  split
  · exact hfloor
  · split
    · omega
    · split <;> omega

/-- A value that is at most a whole number is rounded to at most that number. -/
theorem nearestEven_le {n : Nat} {q : Rat} (h : q ≤ n) : nearestEven q ≤ n := by
  rcases eq_or_lt_of_le h with rfl | hlt
  · rw [nearestEven_natCast]
  by_cases hq : q < 0
  · have hfloor : q.floor.toNat = 0 := by
      have : q.floor < 0 := Int.floor_lt.2 (by exact_mod_cast hq)
      omega
    have hpart : 2 * (q - ((0 : Nat) : Rat)) < 1 := by
      push_cast
      linarith
    dsimp only [nearestEven]
    rw [hfloor, if_pos hpart]
    exact Nat.zero_le n
  · have hfloor : q.floor.toNat + 1 ≤ n := by
      have hlt : q.floor < n := Int.floor_lt.2 (by exact_mod_cast hlt)
      have hnonneg : 0 ≤ q.floor := Int.floor_nonneg.2 (not_lt.1 hq)
      omega
    dsimp only [nearestEven]
    split
    · omega
    · split
      · omega
      · split <;> omega

/-- Less than a half is rounded away. -/
theorem nearestEven_eq_zero {q : Rat} (h : 2 * q < 1) : nearestEven q = 0 := by
  have hfloor : q.floor.toNat = 0 := by
    have hlt : q < ((1 : Int) : Rat) := by
      push_cast
      linarith
    have : q.floor < 1 := Int.floor_lt.2 hlt
    omega
  have hpart : 2 * (q - ((0 : Nat) : Rat)) < 1 := by
    push_cast
    linarith
  dsimp only [nearestEven]
  rw [hfloor, if_pos hpart]

/-! ## 2. Powers of two -/

theorem two_zpow_pos (k : Int) : (0 : Rat) < 2 ^ k :=
  zpow_pos two_pos k

theorem two_zpow_natCast (n : Nat) : (2 : Rat) ^ (n : Int) = ((2 ^ n : Nat) : Rat) := by
  rw [zpow_natCast]
  push_cast
  rfl

/-- The binary orders of numerator and denominator give that of the quotient up to one. -/
theorem two_zpow_log2_sub {q : Rat} (hq : 0 < q) :
    (2 : Rat) ^ ((q.num.toNat.log2 : Int) - (q.den.log2 + 1 : Nat)) ≤ q ∧
      q < 2 ^ (((q.num.toNat.log2 + 1 : Nat) : Int) - q.den.log2) := by
  have hnum : (0 : Int) < q.num := Rat.num_pos.2 hq
  have hnum0 : q.num.toNat ≠ 0 := by omega
  have hcast : (q.num.toNat : Rat) / q.den = q := by
    have htoNat : ((q.num.toNat : Int) : Rat) = q.num := by
      rw [Int.toNat_of_nonneg hnum.le]
    rw [← Int.cast_natCast, htoNat, Rat.num_div_den]
  have hden : (0 : Rat) < q.den := by exact_mod_cast q.pos
  have hnumLow : ((2 ^ q.num.toNat.log2 : Nat) : Rat) ≤ q.num.toNat := by
    exact_mod_cast Nat.log2_self_le hnum0
  have hnumHigh : (q.num.toNat : Rat) < ((2 ^ (q.num.toNat.log2 + 1) : Nat) : Rat) := by
    exact_mod_cast Nat.lt_log2_self
  have hdenLow : ((2 ^ q.den.log2 : Nat) : Rat) ≤ q.den := by
    exact_mod_cast Nat.log2_self_le q.den_nz
  have hdenHigh : (q.den : Rat) < ((2 ^ (q.den.log2 + 1) : Nat) : Rat) := by
    exact_mod_cast Nat.lt_log2_self
  rw [← two_zpow_natCast] at hnumLow hnumHigh hdenLow hdenHigh
  constructor
  · calc (2 : Rat) ^ ((q.num.toNat.log2 : Int) - (q.den.log2 + 1 : Nat))
        = 2 ^ (q.num.toNat.log2 : Int) / 2 ^ ((q.den.log2 + 1 : Nat) : Int) :=
          zpow_sub₀ two_ne_zero _ _
      _ ≤ q.num.toNat / q.den := div_le_div₀ (Nat.cast_nonneg _) hnumLow hden hdenHigh.le
      _ = q := hcast
  · calc q = q.num.toNat / q.den := hcast.symm
      _ < 2 ^ ((q.num.toNat.log2 + 1 : Nat) : Int) / 2 ^ (q.den.log2 : Int) :=
          div_lt_div₀ hnumHigh hdenLow (two_zpow_pos _).le (two_zpow_pos _)
      _ = 2 ^ (((q.num.toNat.log2 + 1 : Nat) : Int) - q.den.log2) :=
          (zpow_sub₀ two_ne_zero _ _).symm

/-- **The binary order is the whole part of the binary logarithm.** -/
theorem binaryOrder_eq_log {q : Rat} (hq : 0 < q) : binaryOrder q = Int.log 2 q := by
  obtain ⟨hlow, hhigh⟩ := two_zpow_log2_sub hq
  have hle : ∀ k : Int, (2 : Rat) ^ k ≤ q ↔ k ≤ Int.log 2 q := fun k => by
    exact_mod_cast Int.zpow_le_iff_le_log (R := Rat) (x := k) one_lt_two hq
  have hlt : ∀ k : Int, q < 2 ^ k ↔ Int.log 2 q < k := fun k => by
    exact_mod_cast Int.lt_zpow_iff_log_lt (R := Rat) (x := k) one_lt_two hq
  have hlow := (hle _).1 hlow
  have hhigh := (hlt _).1 hhigh
  dsimp only [binaryOrder]
  split
  · next h =>
      have := (hle _).1 h
      omega
  · next h =>
      have := (hlt _).1 (not_le.1 h)
      omega

theorem le_binaryOrder_iff {q : Rat} (hq : 0 < q) {k : Int} : k ≤ binaryOrder q ↔ 2 ^ k ≤ q := by
  have hle := Int.zpow_le_iff_le_log (R := Rat) (x := k) one_lt_two hq
  rw [binaryOrder_eq_log hq]
  push_cast at hle
  exact hle.symm

theorem binaryOrder_lt_iff {q : Rat} (hq : 0 < q) {k : Int} : binaryOrder q < k ↔ q < 2 ^ k := by
  rw [← not_le, le_binaryOrder_iff hq, not_le]

/-- A value up to a whole number of steps is rounded to at most that many. -/
theorem nearestEven_steps_le {n : Nat} {e : Int} {q : Rat} (h : q ≤ n * 2 ^ e) :
    nearestEven (q * 2 ^ (-e)) ≤ n := by
  refine nearestEven_le ?_
  rwa [zpow_neg, ← div_eq_mul_inv, div_le_iff₀ (two_zpow_pos e)]

/-- A value from a whole number of steps on is rounded to at least that many. -/
theorem le_nearestEven_steps {n : Nat} {e : Int} {q : Rat} (h : n * 2 ^ e ≤ q) :
    n ≤ nearestEven (q * 2 ^ (-e)) := by
  refine le_nearestEven ?_
  rwa [zpow_neg, ← div_eq_mul_inv, le_div_iff₀ (two_zpow_pos e)]

/-! ## 3. Magnitudes -/

namespace BinaryFormat

variable (f : BinaryFormat)

theorem leastFull_eq : (f.leastFull : Rat) = 2 ^ ((f.precision : Int) - 1) := by
  have hp := f.two_le_precision
  have hcast : ((f.precision : Int) - 1) = ((f.precision - 1 : Nat) : Int) := by omega
  rw [hcast, two_zpow_natCast]
  rfl

theorem bound_eq_zpow : (f.bound : Rat) = 2 ^ (f.precision : Int) := by
  rw [two_zpow_natCast]
  rfl

end BinaryFormat

namespace Magnitude

variable {f : BinaryFormat} {a : Magnitude f} {q : Rat} {k : Int}

theorem toRat_nonneg (a : Magnitude f) : 0 ≤ a.toRat :=
  mul_nonneg (Nat.cast_nonneg _) (two_zpow_pos _).le

theorem toRat_eq_zero_iff : a.toRat = 0 ↔ a.isZero = true := by
  have hpow := (two_zpow_pos a.exponent).ne'
  unfold toRat isZero
  simp [hpow]

theorem toRat_pos (h : a.isZero = false) : 0 < a.toRat := by
  refine lt_of_le_of_ne a.toRat_nonneg fun hzero => ?_
  rw [toRat_eq_zero_iff.1 hzero.symm] at h
  exact Bool.false_ne_true h.symm

theorem toRat_zero : (zero : Magnitude f).toRat = 0 :=
  toRat_eq_zero_iff.2 rfl

/-- A magnitude is rounded at its own exponent. -/
theorem roundingExponent_toRat (h : a.isZero = false) :
    roundingExponent f a.toRat = a.exponent := by
  obtain ⟨hlt, hmin, -, hfull⟩ := a.canonical
  have hpos := toRat_pos h
  have hbelow : binaryOrder a.toRat < f.precision + a.exponent := by
    rw [binaryOrder_lt_iff hpos, zpow_add₀ two_ne_zero, ← f.bound_eq_zpow]
    exact mul_lt_mul_of_pos_right (by exact_mod_cast hlt) (two_zpow_pos _)
  unfold roundingExponent
  rcases hfull with hfull | hfull
  · have habove : (f.precision : Int) - 1 + a.exponent ≤ binaryOrder a.toRat := by
      rw [le_binaryOrder_iff hpos, zpow_add₀ two_ne_zero, ← f.leastFull_eq]
      exact mul_le_mul_of_nonneg_right (by exact_mod_cast hfull) (two_zpow_pos _).le
    omega
  · omega

/-- **Rounding leaves a magnitude as it is.** -/
theorem nearest?_toRat (a : Magnitude f) : nearest? a.toRat = some a := by
  cases h : a.isZero with
  | true => rw [toRat_eq_zero_iff.2 h, nearest?_zero, eq_zero_of_isZero h]
  | false =>
      have hsteps : a.toRat * 2 ^ (-a.exponent) = a.significand := by
        rw [toRat, mul_assoc, ← zpow_add₀ two_ne_zero, Int.add_right_neg, zpow_zero, mul_one]
      have hne : a.significand ≠ f.bound := Nat.ne_of_lt a.canonical.1
      simp only [nearest?, (toRat_pos h).ne', if_false, roundingExponent_toRat h, hsteps,
        nearestEven_natCast, hne, ofParts?_parts]

theorem ofParts?_eq_some {m : Nat} {e : Int} (h : ofParts? m e = some a) :
    a.significand = m ∧ a.exponent = e := by
  unfold ofParts? at h
  split at h
  · rw [← Option.some.inj h]
    exact ⟨rfl, rfl⟩
  · simp at h

/-- What a value is rounded to: the nearest whole number of steps. -/
theorem toRat_of_nearest? (hq : q ≠ 0) (h : nearest? q = some a) :
    a.toRat = nearestEven (q * 2 ^ (-roundingExponent f q)) * 2 ^ roundingExponent f q := by
  simp only [nearest?, hq, if_false] at h
  split at h
  · next hbound =>
      obtain ⟨hm, he⟩ := ofParts?_eq_some h
      rw [hbound, toRat, hm, he, f.bound_eq, zpow_add₀ two_ne_zero, zpow_one]
      push_cast
      ring
  · obtain ⟨hm, he⟩ := ofParts?_eq_some h
    rw [toRat, hm, he]

theorem roundingExponent_le (hq : 0 < q) (hk : f.minExponent ≤ k) (h : q ≤ 2 ^ k) :
    roundingExponent f q ≤ k := by
  have hp := f.two_le_precision
  have horder : binaryOrder q < k + 1 :=
    (binaryOrder_lt_iff hq).2 (lt_of_le_of_lt h (zpow_lt_zpow_right₀ one_lt_two (by omega)))
  unfold roundingExponent
  omega

/-- **Rounding does not cross a power of two from below.** -/
theorem toRat_le_of_nearest? (h0 : 0 ≤ q) (hk : f.minExponent ≤ k) (h : q ≤ 2 ^ k)
    (ha : nearest? q = some a) : a.toRat ≤ 2 ^ k := by
  rcases eq_or_lt_of_le h0 with rfl | hq
  · rw [nearest?_zero] at ha
    rw [← Option.some.inj ha, toRat_zero]
    exact (two_zpow_pos k).le
  obtain ⟨n, hn⟩ := Int.eq_ofNat_of_zero_le (Int.sub_nonneg_of_le (roundingExponent_le hq hk h))
  have hpow : (2 : Rat) ^ k = ((2 ^ n : Nat) : Rat) * 2 ^ roundingExponent f q := by
    rw [← two_zpow_natCast, ← zpow_add₀ two_ne_zero]
    congr 1
    omega
  have hle :
      ((nearestEven (q * 2 ^ (-roundingExponent f q)) : Nat) : Rat) ≤ ((2 ^ n : Nat) : Rat) := by
    exact_mod_cast nearestEven_steps_le (h.trans_eq hpow)
  rw [toRat_of_nearest? hq.ne' ha, hpow]
  exact mul_le_mul_of_nonneg_right hle (two_zpow_pos _).le

/-- **Rounding does not cross a power of two from above.** -/
theorem le_toRat_of_nearest? (hk : f.minExponent ≤ k) (h : 2 ^ k ≤ q)
    (ha : nearest? q = some a) : (2 : Rat) ^ k ≤ a.toRat := by
  have hq : 0 < q := lt_of_lt_of_le (two_zpow_pos k) h
  have hp := f.two_le_precision
  have horder : k ≤ binaryOrder q := (le_binaryOrder_iff hq).2 h
  have hself : (2 : Rat) ^ binaryOrder q ≤ q := (le_binaryOrder_iff hq).1 (Int.le_refl _)
  have hexp : roundingExponent f q ≤ binaryOrder q := by
    unfold roundingExponent
    omega
  obtain ⟨n, hn⟩ := Int.eq_ofNat_of_zero_le (Int.sub_nonneg_of_le hexp)
  have hpow : (2 : Rat) ^ binaryOrder q = ((2 ^ n : Nat) : Rat) * 2 ^ roundingExponent f q := by
    rw [← two_zpow_natCast, ← zpow_add₀ two_ne_zero]
    congr 1
    omega
  have hle :
      ((2 ^ n : Nat) : Rat) ≤ ((nearestEven (q * 2 ^ (-roundingExponent f q)) : Nat) : Rat) := by
    exact_mod_cast le_nearestEven_steps (hpow.symm.trans_le hself)
  calc (2 : Rat) ^ k ≤ 2 ^ binaryOrder q := zpow_le_zpow_right₀ one_le_two horder
    _ = ((2 ^ n : Nat) : Rat) * 2 ^ roundingExponent f q := hpow
    _ ≤ a.toRat := by
        rw [toRat_of_nearest? hq.ne' ha]
        exact mul_le_mul_of_nonneg_right hle (two_zpow_pos _).le

/-- There is no magnitude with an exponent above the range. -/
theorem ofParts?_eq_none {m : Nat} {e : Int} (h : f.maxExponent < e) :
    (ofParts? m e : Option (Magnitude f)) = none :=
  dif_neg fun hc => Int.not_le.2 h hc.2.2.1

/-- **Past the range there is no nearest magnitude.** -/
theorem nearest?_eq_none (h : 2 ^ (f.maxExponent + f.precision) ≤ q) :
    (nearest? q : Option (Magnitude f)) = none := by
  have hq : 0 < q := lt_of_lt_of_le (two_zpow_pos _) h
  have horder : f.maxExponent + f.precision ≤ binaryOrder q := (le_binaryOrder_iff hq).2 h
  have hexp : f.maxExponent < roundingExponent f q := by
    unfold roundingExponent
    omega
  simp only [nearest?, hq.ne', if_false]
  split
  · exact ofParts?_eq_none (by omega)
  · exact ofParts?_eq_none hexp

/-- **Below half of the smallest magnitude the nearest is zero.** -/
theorem nearest?_eq_zero (h0 : 0 ≤ q) (h : q < 2 ^ (f.minExponent - 1)) :
    (nearest? q : Option (Magnitude f)) = some zero := by
  rcases eq_or_lt_of_le h0 with rfl | hq
  · exact nearest?_zero
  have hp := f.two_le_precision
  have horder : binaryOrder q < f.minExponent - 1 := (binaryOrder_lt_iff hq).2 h
  have hexp : roundingExponent f q = f.minExponent := by
    unfold roundingExponent
    omega
  have hhalf : 2 * (q * 2 ^ (-f.minExponent)) < 1 := by
    have hpow : (2 : Rat) ^ (f.minExponent - 1) * (2 * 2 ^ (-f.minExponent)) = 1 := by
      have hexp : f.minExponent - 1 + (1 + -f.minExponent) = 0 := by omega
      rw [← zpow_one_add₀ two_ne_zero, ← zpow_add₀ two_ne_zero, hexp, zpow_zero]
    calc 2 * (q * 2 ^ (-f.minExponent)) = q * (2 * 2 ^ (-f.minExponent)) := by ring
      _ < 2 ^ (f.minExponent - 1) * (2 * 2 ^ (-f.minExponent)) :=
          mul_lt_mul_of_pos_right h (mul_pos two_pos (two_zpow_pos _))
      _ = 1 := hpow
  have hsteps : nearestEven (q * 2 ^ (-f.minExponent)) = 0 := nearestEven_eq_zero hhalf
  have hbound : 0 ≠ f.bound := by
    rw [f.bound_eq]
    have := f.leastFull_pos
    omega
  simp only [nearest?, hq.ne', if_false, hexp, hsteps, hbound]
  exact ofParts?_parts zero

end Magnitude

end Calculator

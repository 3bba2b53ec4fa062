import Calculator.Number

/-!
# Bit patterns of numbers

The interchange pattern of a number holds, from the high end, the sign, the exponent field and the
trailing digits. The pattern of a positive finite number is the rank of its magnitude; the patterns
of the infinities and of NaN follow the ranks. Main statement: `ofBits_toBits`, a pattern
determines its number.
-/

namespace Calculator

namespace BinaryFormat

/-- The first pattern above those of the positive finite numbers: the positive infinity. -/
def infinityBits (f : BinaryFormat) : Nat :=
  (f.maxExponent - f.minExponent + 2).toNat * f.leastFull

/-- The pattern of the sign alone: the negative zero. -/
def signBits (f : BinaryFormat) : Nat :=
  (f.maxExponent - f.minExponent + 3).toNat * f.leastFull

theorem signBits_eq (f : BinaryFormat) : f.signBits = f.infinityBits + f.leastFull := by
  have h := f.minExponent_le
  have : (f.maxExponent - f.minExponent + 3).toNat =
      (f.maxExponent - f.minExponent + 2).toNat + 1 := by
    omega
  rw [signBits, infinityBits, this, Nat.add_mul, Nat.one_mul]

end BinaryFormat

/-- Finite magnitudes rank below the infinity. -/
theorem Magnitude.code_lt {f : BinaryFormat} (a : Magnitude f) : a.code < f.infinityBits := by
  obtain ⟨hlt, hmin, hmax, -⟩ := a.canonical
  have hb := f.bound_eq
  have hk : (a.exponent - f.minExponent).toNat + 2 ≤ (f.maxExponent - f.minExponent + 2).toNat := by
    omega
  have := Nat.mul_le_mul_right f.leastFull hk
  rw [Nat.add_mul] at this
  unfold Magnitude.code BinaryFormat.infinityBits
  omega

namespace Number

variable {f : BinaryFormat}

/-- The pattern of a magnitude with a sign. -/
def withSign (negative : Bool) (bits : Nat) : Nat :=
  if negative then f.signBits + bits else bits

/-- The pattern of a number; NaN has the first trailing digit set and no sign. -/
def toBits : Number f → Nat
  | .nan => f.infinityBits + f.leastFull / 2
  | .infinite negative => withSign (f := f) negative f.infinityBits
  | .finite negative a => withSign (f := f) negative a.code

/-- The number of a pattern. -/
def ofBits (bits : Nat) : Number f :=
  let negative : Bool := decide (f.signBits ≤ bits)
  let rest := if negative then bits - f.signBits else bits
  if rest = f.infinityBits then .infinite negative
  else
    match Magnitude.ofCode? rest with
    | some a => .finite negative a
    | none => .nan

/-- The sign is read back from a pattern that it was put on. -/
theorem signBits_le_withSign {negative : Bool} {bits : Nat} (h : bits < f.signBits) :
    f.signBits ≤ withSign (f := f) negative bits ↔ negative = true := by
  cases negative <;> simp [withSign, h]

/-- The pattern without its sign is read back. -/
theorem withSign_sub (negative : Bool) (bits : Nat) :
    (if negative then withSign (f := f) negative bits - f.signBits
      else withSign (f := f) negative bits) = bits := by
  cases negative <;> simp [withSign]

/-- No magnitude has the rank of a pattern from the infinity upward. -/
theorem ofCode?_eq_none {n : Nat} (h : f.infinityBits ≤ n) :
    (Magnitude.ofCode? n : Option (Magnitude f)) = none := by
  have hl := f.leastFull_pos
  have hk := (Nat.le_div_iff_mul_le hl).2 h
  refine dif_neg fun hc => ?_
  have hmax := hc.2.2.1
  have := f.minExponent_le
  unfold Magnitude.codeExponent at hmax
  omega

/-- **A pattern determines its number.** -/
theorem ofBits_toBits (x : Number f) : ofBits x.toBits = x := by
  have hs := f.signBits_eq
  have hl := f.leastFull_pos
  cases x with
  | nan =>
      have h2 := f.two_le_leastFull
      have hsign : ¬ f.signBits ≤ f.infinityBits + f.leastFull / 2 := by omega
      have hne : ¬ f.infinityBits + f.leastFull / 2 = f.infinityBits := by omega
      have hnone := ofCode?_eq_none (Nat.le_add_right f.infinityBits (f.leastFull / 2))
      simp only [toBits, ofBits, hsign, decide_false, Bool.false_eq_true, if_false, hne, hnone]
  | infinite negative =>
      have hlt : f.infinityBits < f.signBits := by omega
      simp [ofBits, toBits, signBits_le_withSign hlt, withSign_sub]
  | finite negative a =>
      have hlt := a.code_lt
      have hlt' : a.code < f.signBits := by omega
      simp [ofBits, toBits, signBits_le_withSign hlt', withSign_sub, Magnitude.ofCode?_code]
      omega

end Number

end Calculator

/-!
# Binary formats and their magnitudes

A binary format has whole significands of a fixed number of binary digits and powers of two from a
fixed range of exponents. This file fixes

* `BinaryFormat`, with the double format `binary64` and the single format `binary32`;
* `Magnitude` -- a finite value without its sign, `significand * 2 ^ exponent`, written in the one
  way that is `Canonical`: as many digits as the exponent range admits;
* `Magnitude.code` -- the rank of a magnitude among all of its format, zero having rank 0; the rank
  determines the magnitude (`ofCode?_code`).
-/

namespace Calculator

/-! ## 1. Formats -/

/-- A binary format: the digits of a significand and the range of exponents. -/
structure BinaryFormat where
  /-- The number of binary digits of a significand. -/
  precision : Nat
  /-- The exponent of the smallest magnitudes. -/
  minExponent : Int
  /-- The exponent of the largest magnitudes. -/
  maxExponent : Int
  two_le_precision : 2 ≤ precision := by decide
  minExponent_le : minExponent ≤ maxExponent := by decide

namespace BinaryFormat

/-- The double format. -/
def binary64 : BinaryFormat where
  precision := 53
  minExponent := -1074
  maxExponent := 971

/-- The single format. -/
def binary32 : BinaryFormat where
  precision := 24
  minExponent := -149
  maxExponent := 104

variable (f : BinaryFormat)

/-- The significands with all their digits start here. -/
def leastFull : Nat :=
  Nat.pow 2 (f.precision - 1)

/-- All significands are below this. -/
def bound : Nat :=
  Nat.pow 2 f.precision

theorem leastFull_pos : 0 < f.leastFull :=
  Nat.two_pow_pos _

theorem bound_pos : 0 < f.bound :=
  Nat.two_pow_pos _

theorem two_le_leastFull : 2 ≤ f.leastFull := by
  obtain ⟨n, hn⟩ := Nat.exists_eq_add_of_le f.two_le_precision
  have hn : f.precision - 1 = n + 1 := by omega
  have := Nat.two_pow_pos n
  unfold leastFull
  rw [hn]
  show 2 ≤ Nat.pow 2 n * 2
  exact Nat.mul_le_mul_right 2 this

theorem bound_eq : f.bound = 2 * f.leastFull := by
  have h := f.two_le_precision
  unfold bound leastFull
  cases hp : f.precision with
  | zero => omega
  | succ n =>
      show Nat.pow 2 n * 2 = 2 * Nat.pow 2 n
      exact Nat.mul_comm _ _

/-- A significand and an exponent are canonical if both are in range and no digit is missing that
    a smaller exponent could give. -/
def Canonical (significand : Nat) (exponent : Int) : Prop :=
  significand < f.bound ∧ f.minExponent ≤ exponent ∧ exponent ≤ f.maxExponent ∧
    (f.leastFull ≤ significand ∨ exponent = f.minExponent)

instance (significand : Nat) (exponent : Int) : Decidable (f.Canonical significand exponent) :=
  inferInstanceAs (Decidable (_ ∧ _ ∧ _ ∧ _))

end BinaryFormat

/-! ## 2. Magnitudes -/

/-- A finite value without its sign. -/
structure Magnitude (f : BinaryFormat) where
  /-- The digits, read as a whole number. -/
  significand : Nat
  /-- The power of two that the digits are multiplied by. -/
  exponent : Int
  canonical : f.Canonical significand exponent
  deriving DecidableEq

namespace Magnitude

variable {f : BinaryFormat}

/-- The magnitude zero. -/
def zero : Magnitude f where
  significand := 0
  exponent := f.minExponent
  canonical := by
    refine ⟨?_, Int.le_refl _, f.minExponent_le, Or.inr rfl⟩
    rw [f.bound_eq]
    have := f.leastFull_pos
    omega

/-- The value of a magnitude. -/
def toRat (a : Magnitude f) : Rat :=
  a.significand * (2 : Rat) ^ a.exponent

/-- Zero is the magnitude without digits. -/
def isZero (a : Magnitude f) : Bool :=
  a.significand = 0

@[simp] theorem isZero_zero : (zero : Magnitude f).isZero = true := rfl

/-- **The only magnitude without digits is zero.** -/
theorem eq_zero_of_isZero {a : Magnitude f} (h : a.isZero = true) : a = zero := by
  obtain ⟨m, e, hc⟩ := a
  have hm : m = 0 := by simpa [isZero] using h
  subst hm
  have hl := f.leastFull_pos
  obtain ⟨-, -, -, hfull | rfl⟩ := hc
  · omega
  · rfl

/-- The magnitude with the given digits and exponent, where they are canonical. -/
def ofParts? (significand : Nat) (exponent : Int) : Option (Magnitude f) :=
  if h : f.Canonical significand exponent then some ⟨significand, exponent, h⟩ else none

@[simp] theorem ofParts?_parts (a : Magnitude f) :
    ofParts? a.significand a.exponent = some a := by
  simp [ofParts?, a.canonical]

/-! ## 3. Ranks -/

/-- The rank of a magnitude: counted from zero, in steps from one magnitude to the next. -/
def code (a : Magnitude f) : Nat :=
  (a.exponent - f.minExponent).toNat * f.leastFull + a.significand

/-- The digits of the magnitude of a rank. -/
def codeSignificand (f : BinaryFormat) (n : Nat) : Nat :=
  if n < f.leastFull then n else f.leastFull + n % f.leastFull

/-- The exponent of the magnitude of a rank. -/
def codeExponent (f : BinaryFormat) (n : Nat) : Int :=
  f.minExponent + ((n / f.leastFull - 1 : Nat) : Int)

/-- The magnitude of a rank; there is none past the largest. -/
def ofCode? (n : Nat) : Option (Magnitude f) :=
  ofParts? (codeSignificand f n) (codeExponent f n)

/-- **The rank determines the magnitude.** -/
theorem ofCode?_code (a : Magnitude f) : ofCode? a.code = some a := by
  have hl := f.leastFull_pos
  have hb := f.bound_eq
  obtain ⟨hlt, hmin, -, hfull⟩ := a.canonical
  have key : codeSignificand f a.code = a.significand ∧ codeExponent f a.code = a.exponent := by
    by_cases hs : a.significand < f.leastFull
    · have he : a.exponent = f.minExponent := hfull.resolve_left (by omega)
      have hc : a.code = a.significand := by simp [code, he]
      rw [hc]
      refine ⟨if_pos hs, ?_⟩
      rw [codeExponent, Nat.div_eq_of_lt hs, he]
      simp
    · obtain ⟨k, hk⟩ : ∃ k : Nat, a.exponent = f.minExponent + k :=
        ⟨(a.exponent - f.minExponent).toNat, by omega⟩
      obtain ⟨r, hr⟩ : ∃ r, a.significand = f.leastFull + r :=
        Nat.exists_eq_add_of_le (by omega)
      have hrl : r < f.leastFull := by omega
      have hc : a.code = r + f.leastFull * (k + 1) := by
        have : (a.exponent - f.minExponent).toNat = k := by omega
        rw [code, this, hr, Nat.mul_comm k, Nat.mul_add]
        omega
      have hnot : ¬ a.code < f.leastFull := by
        rw [hc, Nat.mul_add]
        omega
      constructor
      · rw [codeSignificand, if_neg hnot, hc, Nat.add_mul_mod_self_left, Nat.mod_eq_of_lt hrl, hr]
      · rw [codeExponent, hc, Nat.add_mul_div_left _ _ hl, Nat.div_eq_of_lt hrl, hk]
        simp
  rw [ofCode?, key.1, key.2, ofParts?_parts]

end Magnitude

end Calculator

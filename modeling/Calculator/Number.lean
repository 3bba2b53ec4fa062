import Calculator.Number.Rounding

/-!
# Numbers of a binary format

A number is a signed magnitude, a signed infinity or NaN. There is one NaN, and there are two
zeros. This file fixes the type, the exact value of a finite number and the number nearest to an
exact value (`Number.ofRat`, `Number.nearest`): a value too large for the format rounds to an
infinity, and a value too small for it rounds to a zero that keeps the sign.
-/

namespace Calculator

/-- A number of a binary format. -/
inductive Number (f : BinaryFormat) where
  | nan
  | infinite (negative : Bool)
  | finite (negative : Bool) (magnitude : Magnitude f)
  deriving DecidableEq

/-- The numbers that the calculator works with. -/
abbrev Double : Type :=
  Number .binary64

namespace Number

variable {f : BinaryFormat}

/-- The zero of a sign. -/
def zero (negative : Bool) : Number f :=
  .finite negative .zero

/-- The number is neither an infinity nor NaN. -/
def isFinite : Number f → Bool
  | .finite _ _ => true
  | _ => false

/-- The number is a zero of either sign. -/
def isZero : Number f → Bool
  | .finite _ a => a.isZero
  | _ => false

/-- The value with the sign that a number carries. -/
def signed (negative : Bool) (q : Rat) : Rat :=
  if negative then -q else q

/-- The exact value of a finite number. -/
def toRat? : Number f → Option Rat
  | .finite negative a => some (signed negative a.toRat)
  | _ => none

/-- The number of the given sign that is nearest to a value that is not negative. -/
def ofRat (negative : Bool) (q : Rat) : Number f :=
  match Magnitude.nearest? q with
  | some a => .finite negative a
  | none => .infinite negative

/-- The number nearest to a value, a zero being positive. -/
def nearest (q : Rat) : Number f :=
  if q < 0 then ofRat true (-q) else ofRat false q

@[simp] theorem ofRat_zero (negative : Bool) : (ofRat negative 0 : Number f) = zero negative := by
  simp [ofRat, zero]

/-- **A number that is a zero is one of the two zeros.** -/
theorem isZero_iff {x : Number f} : x.isZero = true ↔ ∃ negative, x = zero negative := by
  constructor
  · intro h
    cases x with
    | finite negative a => exact ⟨negative, by rw [zero, Magnitude.eq_zero_of_isZero h]⟩
    | nan => simp [isZero] at h
    | infinite negative => simp [isZero] at h
  · rintro ⟨negative, rfl⟩
    rfl

end Number

end Calculator

import Calculator.Decimal.Digits

/-!
# Decimals

A decimal is a whole number times a power of ten. Different decimals can have one value: `strip`
takes the zeros at the end of the coefficient into the exponent. A decimal is written in two
layouts:

* `wholeDigits` and `fractionDigits` -- the places before and after the point, whatever the
  exponent;
* `scientific` -- one digit before the point, and the exponent.
-/

namespace Calculator

/-- A decimal without sign: `coefficient * 10 ^ exponent`. -/
structure Decimal where
  coefficient : Nat
  exponent : Int
  deriving DecidableEq

namespace Decimal

/-- The value of a decimal. -/
def toRat (d : Decimal) : Rat :=
  d.coefficient * (10 : Rat) ^ d.exponent

/-- The number of places before the point of the first digit: a coefficient other than zero makes
    the value at least the power of ten before this one and less than this one. -/
def magnitudeOrder (d : Decimal) : Int :=
  digitCount d.coefficient + d.exponent

/-- The decimal without zeros at the end of its coefficient; zero is left as it is. -/
def strip (d : Decimal) : Decimal :=
  if h : d.coefficient ≠ 0 ∧ d.coefficient % 10 = 0 then
    strip ⟨d.coefficient / 10, d.exponent + 1⟩
  else d
termination_by d.coefficient
decreasing_by
  show d.coefficient / 10 < d.coefficient
  omega

/-! ## 1. Places -/

/-- The coefficient with the zeros that a positive exponent adds. -/
def scaled (d : Decimal) : Nat :=
  d.coefficient * Nat.pow 10 d.exponent.toNat

/-- How many places stand after the point. -/
def fractionLength (d : Decimal) : Nat :=
  (-d.exponent).toNat

/-- The digits before the point, at least one. -/
def wholeDigits (d : Decimal) : Text :=
  digits (d.scaled / Nat.pow 10 d.fractionLength)

/-- The digits after the point. -/
def fractionDigits (d : Decimal) : Text :=
  paddedDigits d.fractionLength d.scaled

@[simp] theorem length_fractionDigits (d : Decimal) : d.fractionDigits.length = d.fractionLength :=
  length_paddedDigits _ _

/-- All places in positional layout, with the point only where a place follows it. -/
def positional (d : Decimal) : Text :=
  if d.fractionLength = 0 then d.wholeDigits else d.wholeDigits ++ '.' :: d.fractionDigits

/-- All places in positional layout, with at least one place after the point. -/
def positionalWithPoint (d : Decimal) : Text :=
  d.wholeDigits ++ '.' :: (if d.fractionLength = 0 then ['0'] else d.fractionDigits)

theorem positionalWithPoint_ne_nil (d : Decimal) : d.positionalWithPoint ≠ [] :=
  List.append_ne_nil_of_right_ne_nil _ (List.cons_ne_nil _ _)

/-! ## 2. Scientific layout -/

/-- A whole number with its sign, where it has one. -/
def signedDigits (z : Int) : Text :=
  if z < 0 then '-' :: digits z.natAbs else digits z.natAbs

/-- The first digit, the others after a point, and the power of ten. -/
def scientific (d : Decimal) : Text :=
  match digits d.coefficient with
  | [] => []
  | first :: others =>
      first :: (if others.isEmpty then [] else '.' :: others) ++
        'e' :: signedDigits (d.exponent + others.length)

theorem scientific_ne_nil (d : Decimal) : d.scientific ≠ [] := by
  unfold scientific
  split
  · next h => exact absurd h (digits_ne_nil d.coefficient)
  · simp

end Decimal

end Calculator

import Calculator.Number.Magnitude

/-!
# Rounding an exact value to a format

An exact value is a rational number. This file fixes the magnitude that is nearest to one:

* `nearestEven` -- the nearest whole number, a half going to the even neighbour;
* `binaryOrder` -- the power of two that a positive value reaches;
* `Magnitude.nearest?` -- the exponent is the least of the format's that leaves the value no more
  digits than the format has, the digits are the nearest whole number of such steps, and there is
  no magnitude for a value whose digits would need an exponent above the format's range.
-/

namespace Calculator

/-- The whole number nearest to a value that is not negative; a half goes to the even neighbour. -/
def nearestEven (q : Rat) : Nat :=
  let whole := q.floor.toNat
  let part := 2 * (q - whole)
  if part < 1 then whole
  else if 1 < part then whole + 1
  else if whole % 2 = 0 then whole
  else whole + 1

/-- The exponent of the largest power of two that is at most a positive value. -/
def binaryOrder (q : Rat) : Int :=
  let estimate : Int := (q.num.toNat.log2 : Int) - (q.den.log2 : Int)
  if (2 : Rat) ^ estimate ≤ q then estimate else estimate - 1

namespace Magnitude

variable {f : BinaryFormat}

/-- The exponent that a positive value is rounded at. -/
def roundingExponent (f : BinaryFormat) (q : Rat) : Int :=
  max f.minExponent (binaryOrder q - ((f.precision : Int) - 1))

/-- The magnitude nearest to a value that is not negative, ties going to even digits; there is none
    if the value lies past the largest magnitude by half a step or more. -/
def nearest? (q : Rat) : Option (Magnitude f) :=
  if q = 0 then some zero
  else
    let exponent := roundingExponent f q
    let significand := nearestEven (q * (2 : Rat) ^ (-exponent))
    if significand = f.bound then ofParts? f.leastFull (exponent + 1)
    else ofParts? significand exponent

@[simp] theorem nearest?_zero : (nearest? 0 : Option (Magnitude f)) = some zero :=
  if_pos rfl

end Magnitude

end Calculator

import Calculator.Error
import Calculator.Number

/-!
# Arithmetic on numbers

A sum, a product and a reciprocal are computed exactly and rounded once. Only these three compute:

* `subtract x y` is `add x (negate y)`;
* `divide x y` is `multiply x (reciprocal y)`, so a quotient is rounded twice, and a zero divisor
  is the only one that is refused (`reciprocal_eq_error_iff`).

An exact sum of zero is the positive zero, except that two negative zeros add up to the negative
one.
-/

namespace Calculator

namespace Number

variable {f : BinaryFormat}

/-- The number with the opposite sign. -/
def negate : Number f → Number f
  | .nan => .nan
  | .infinite negative => .infinite !negative
  | .finite negative a => .finite (!negative) a

/-- Negation undoes itself. -/
@[simp] theorem negate_negate (x : Number f) : x.negate.negate = x := by
  cases x <;> simp [negate]

/-- The rounded sum; opposite infinities have none. -/
def add : Number f → Number f → Number f
  | .finite s a, .finite t b =>
      let sum := signed s a.toRat + signed t b.toRat
      if sum = 0 then zero (s && t) else nearest sum
  | .infinite s, .infinite t => if s = t then .infinite s else .nan
  | .infinite s, .finite _ _ => .infinite s
  | .finite _ _, .infinite t => .infinite t
  | .nan, _ => .nan
  | _, .nan => .nan

/-- The rounded product; a zero and an infinity have none. -/
def multiply : Number f → Number f → Number f
  | .finite s a, .finite t b => ofRat (s ^^ t) (a.toRat * b.toRat)
  | .infinite s, .infinite t => .infinite (s ^^ t)
  | .infinite s, .finite t b => if b.isZero then .nan else .infinite (s ^^ t)
  | .finite s a, .infinite t => if a.isZero then .nan else .infinite (s ^^ t)
  | .nan, _ => .nan
  | _, .nan => .nan

/-- One divided by the number, rounded; a zero of either sign is refused. -/
def reciprocal : Number f → Except Error (Number f)
  | .nan => .ok .nan
  | .infinite negative => .ok (zero negative)
  | .finite negative a =>
      if a.isZero then .error .divisionByZero else .ok (ofRat negative a.toRat⁻¹)

/-- The sum with the opposite of the second number. -/
def subtract (x y : Number f) : Number f :=
  add x (negate y)

/-- The product with the reciprocal of the second number. -/
def divide (x y : Number f) : Except Error (Number f) :=
  (reciprocal y).map (multiply x)

/-- **The zeros are the only numbers without a reciprocal.** -/
theorem reciprocal_eq_error_iff {x : Number f} {e : Error} :
    reciprocal x = .error e ↔ x.isZero = true ∧ e = .divisionByZero := by
  cases x with
  | nan => simp [reciprocal, isZero]
  | infinite negative => simp [reciprocal, isZero]
  | finite negative a =>
      cases h : a.isZero <;> simp [reciprocal, isZero, h, eq_comm]

/-- The zeros are the only divisors that are refused. -/
theorem divide_eq_error_iff {x y : Number f} {e : Error} :
    divide x y = .error e ↔ y.isZero = true ∧ e = .divisionByZero := by
  rw [← reciprocal_eq_error_iff, divide]
  cases reciprocal y <;> simp [Except.map]

end Number

end Calculator

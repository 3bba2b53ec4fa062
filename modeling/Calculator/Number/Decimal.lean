import Calculator.Decimal.Numeral
import Calculator.Number

/-!
# Numbers and decimals

The two directions between decimals and the numbers of a format:

* `Number.ofText?` -- a numeral reads as the nearest number, whatever its length; a decimal whose
  order alone puts it above all magnitudes or below half of the smallest is not computed;
* `Magnitude.shortest` -- a magnitude is written with the fewest digits that read back as it; of
  several such decimals with that many digits the nearest, and the larger of two equally near ones.

Two layouts write a number: `resultText`, which keeps a place after the point and changes to powers
of ten at `10 ^ 16` and below `10 ^ (-4)`, and `listingText`, which is always positional.
-/

namespace Calculator

namespace Number

variable {f : BinaryFormat}

/-! ## 1. Reading -/

/-- The number nearest to a decimal of the given sign. -/
def ofDecimal (negative : Bool) (d : Decimal) : Number f :=
  if d.coefficient = 0 then zero negative
  else if max (f.maxExponent + f.precision) 0 < d.magnitudeOrder then .infinite negative
  else if d.magnitudeOrder < min f.minExponent 1 then zero negative
  else ofRat negative d.toRat

/-- The number that a numeral stands for. -/
def ofNumeral : Numeral → Number f
  | .nan => .nan
  | .infinite negative => .infinite negative
  | .decimal negative d => ofDecimal negative d

/-- The number that a text reads as. -/
def ofText? (t : Text) : Option (Number f) :=
  (Numeral.ofText? t).map ofNumeral

end Number

/-! ## 2. The shortest decimal -/

namespace Decimal

/-- The decimal nearest to `d` among its two neighbours with `k` digits fewer that `accepts`; of two
    equally near ones the larger. -/
def shortened? (accepts : Decimal → Bool) (d : Decimal) (k : Nat) : Option Decimal :=
  let unit := Nat.pow 10 k
  let below : Decimal := ⟨d.coefficient / unit, d.exponent + k⟩
  let above : Decimal := ⟨d.coefficient / unit + 1, d.exponent + k⟩
  match accepts below, accepts above with
  | true, true => if 2 * (d.coefficient % unit) < unit then some below else some above
  | true, false => some below
  | false, true => some above
  | false, false => none

/-- The decimal with the fewest digits that `accepts`, at most `k` digits being dropped from `d`. -/
def shorten (accepts : Decimal → Bool) (d : Decimal) : Nat → Decimal
  | 0 => d
  | k + 1 => (shortened? accepts d (k + 1)).getD (shorten accepts d k)

/-- **What is accepted of a decimal that is accepted is accepted.** -/
theorem accepts_shorten {accepts : Decimal → Bool} {d : Decimal} (h : accepts d = true) :
    ∀ k, accepts (shorten accepts d k) = true
  | 0 => h
  | k + 1 => by
      unfold shorten
      cases hs : shortened? accepts d (k + 1) with
      | none => exact accepts_shorten h k
      | some c =>
          dsimp only [shortened?] at hs
          rw [Option.getD_some]
          split at hs
          · split at hs <;> simp_all
          · simp_all
          · simp_all
          · simp at hs

end Decimal

namespace Magnitude

variable {f : BinaryFormat}

/-- The decimal with exactly the value of a magnitude: a power of two below zero is a power of five
    with as many places. -/
def exactDecimal (a : Magnitude f) : Decimal :=
  ⟨a.significand * Nat.pow 2 a.exponent.toNat * Nat.pow 5 (-a.exponent).toNat, min a.exponent 0⟩

/-- The decimal reads as the magnitude. -/
def isReadFrom (a : Magnitude f) (d : Decimal) : Bool :=
  Number.ofDecimal false d = .finite false a

/-- The decimal that a magnitude is written as. -/
def shortest (a : Magnitude f) : Decimal :=
  if a.isZero then ⟨0, 0⟩
  else
    let exact := a.exactDecimal
    (Decimal.shorten a.isReadFrom exact (digitCount exact.coefficient - 1)).strip

end Magnitude

/-! ## 3. Writing -/

namespace Number

variable {f : BinaryFormat}

/-- A text with the minus sign of a negative number. -/
def withMinus (negative : Bool) (t : Text) : Text :=
  if negative then '-' :: t else t

/-- The magnitudes that results show with a power of ten. -/
def isScientific (a : Magnitude f) : Bool :=
  (10 : Rat) ^ (16 : Int) ≤ a.toRat || (!a.isZero && a.toRat < (10 : Rat) ^ (-4 : Int))

/-- The result text of a magnitude. -/
def magnitudeText (a : Magnitude f) : Text :=
  if isScientific a then a.shortest.scientific else a.shortest.positionalWithPoint

/-- How a number is shown as a result. -/
def resultText : Number f → Text
  | .nan => "NaN".toList
  | .infinite negative => withMinus negative "inf".toList
  | .finite negative a => withMinus negative (magnitudeText a)

theorem withMinus_ne_nil {t : Text} (h : t ≠ []) (negative : Bool) : withMinus negative t ≠ [] := by
  cases negative with
  | false => exact h
  | true => exact List.cons_ne_nil _ _

/-- Each number shows something. -/
theorem resultText_ne_nil (x : Number f) : x.resultText ≠ [] := by
  cases x with
  | nan => exact List.cons_ne_nil _ _
  | infinite negative => exact withMinus_ne_nil (List.cons_ne_nil _ _) negative
  | finite negative a =>
      refine withMinus_ne_nil ?_ negative
      unfold magnitudeText
      split
      · exact a.shortest.scientific_ne_nil
      · exact a.shortest.positionalWithPoint_ne_nil

/-- How a number is shown in a listing. -/
def listingText : Number f → Text
  | .nan => "NaN".toList
  | .infinite negative => withMinus negative "inf".toList
  | .finite negative a => withMinus negative a.shortest.positional

end Number

end Calculator

import Calculator.Decimal

/-!
# Numerals

A numeral is what a text may say about a number before any format is chosen: a signed decimal, a
signed infinity or NaN. `Numeral.ofText?` reads one. The text is an optional sign followed by

* a word, in any letter case: `inf`, `infinity` or `nan`; or
* digits with at most one point among or around them, then an optional exponent: the letter `e` or
  `E`, an optional sign and digits.

Blanks are no part of a numeral.
-/

namespace Calculator

/-- A number as it is written. -/
inductive Numeral where
  | nan
  | infinite (negative : Bool)
  | decimal (negative : Bool) (d : Decimal)
  deriving DecidableEq

namespace Numeral

/-- The sign in front of a text and what follows it; without a sign the text is positive. -/
def splitSign : Text → Bool × Text
  | '+' :: t => (false, t)
  | '-' :: t => (true, t)
  | t => (false, t)

/-- The digits at the head of a text, with one point among or around them, and what follows. -/
def significand? (t : Text) : Option (Decimal × Text) :=
  let whole := t.takeWhile Char.isDigit
  let afterWhole := t.dropWhile Char.isDigit
  let afterPoint := match afterWhole with
    | '.' :: r => r
    | _ => []
  let fraction := afterPoint.takeWhile Char.isDigit
  let rest := match afterWhole with
    | '.' :: r => r.dropWhile Char.isDigit
    | r => r
  if whole.isEmpty && fraction.isEmpty then none
  else some (⟨digitsValue (whole ++ fraction), -(fraction.length : Int)⟩, rest)

/-- The exponent that a text is, without one being zero. -/
def exponent? : Text → Option Int
  | [] => some 0
  | c :: t =>
      let (negative, ds) := splitSign t
      if (c = 'e' || c = 'E') && !ds.isEmpty && ds.all Char.isDigit then
        some (if negative then -(digitsValue ds : Int) else digitsValue ds)
      else none

/-- The decimal that a text without sign is. -/
def decimal? (t : Text) : Option Decimal :=
  match significand? t with
  | some (d, rest) => (exponent? rest).map fun e => ⟨d.coefficient, d.exponent + e⟩
  | none => none

/-- The numeral that a text is. -/
def ofText? (t : Text) : Option Numeral :=
  let (negative, body) := splitSign t
  let word := body.map Char.toLower
  if word = "nan".toList then some .nan
  else if word = "inf".toList || word = "infinity".toList then some (.infinite negative)
  else (decimal? body).map (.decimal negative)

end Numeral

end Calculator

import Calculator.Token.Scan

/-!
# Cuts of a text

A cut of a text is a list of tokens that make it up and in which each minus sign has found its
side: what is a number's own sign and what is an operator can be told from the neighbours alone.
This file states that condition without a scan (`IsCut`), which points of a text are decimal points
(`IsDecimalPoint`), those that can stand inside a number, and which point is the first that is none
(`IsFirstFault`).
-/

namespace Calculator

namespace Token

/-! ## 1. Cuts -/

/-- A number's text is a literal, with a minus sign exactly if the number is negative. -/
def IsLexeme : Token → Prop
  | .number false t => IsLiteral t
  | .number true t => ∃ w, IsLiteral w ∧ t = '-' :: w
  | _ => True

/-- The token is a number. -/
def isNumber : Token → Bool
  | .number _ _ => true
  | _ => false

/-- The token is a number with its own minus sign. -/
def isNegative : Token → Bool
  | .number negative _ => negative
  | _ => false

/-- What two neighbours must not be: two numbers, or a negative number behind a closing bracket. -/
def IsApart (s t : Token) : Prop :=
  ¬ (s.isNumber ∧ t.isNumber) ∧ ¬ (s = .rightBracket ∧ t.isNegative)

/-- The tokens make up the text, and each minus sign is where it belongs: as an operator before an
    unsigned number it has an operand before it. -/
structure IsCut (t : Text) (ts : List Token) : Prop where
  text_eq : ts.flatMap text = t
  lexemes : ∀ tok ∈ ts, tok.IsLexeme
  apart : ∀ pre s s' post, ts = pre ++ s :: s' :: post → IsApart s s'
  minus : ∀ pre w post, ts = pre ++ .operator .subtraction :: .number false w :: post →
    ∃ s, pre.getLast? = some s ∧ s.endsOperand

/-! ## 2. Decimal points -/

/-- The character is a digit or a point. -/
def isDigitOrPoint (c : Char) : Bool :=
  c.isDigit || c = '.'

/-- The point between `before` and `after` is the decimal point of its run of digits and points: a
    digit stands on both sides, and no other point before it in the run. -/
def IsDecimalPoint (before after : Text) : Prop :=
  (∃ c ∈ before.getLast?, c.isDigit = true) ∧ (∃ c ∈ after.head?, c.isDigit = true) ∧
    '.' ∉ before.reverse.takeWhile isDigitOrPoint

/-- Each point of the text is a decimal point. -/
def HasOnlyDecimalPoints (t : Text) : Prop :=
  ∀ before after, t = before ++ '.' :: after → IsDecimalPoint before after

/-- The point between `before` and `after` is no decimal point, and each point before it is one. -/
structure IsFirstFault (before after : Text) : Prop where
  fault : ¬ IsDecimalPoint before after
  first : ∀ pre post, before = pre ++ '.' :: post → IsDecimalPoint pre (post ++ '.' :: after)

end Token

end Calculator

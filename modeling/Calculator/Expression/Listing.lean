import Calculator.Postfix
import Calculator.Token

/-!
# Reading listings

A listing shows tokens, or the elements of a postfix form, as the words of a line. This file reads
one by its words alone: a lone symbol is an operator (`Operator.ofWord?`), and a word that is
neither that nor a bracket is a number, as a token by its characters (`Token.ofWord`), as an element
by its value (`Element.ofWord?`).
-/

namespace Calculator

/-- The operator that a word is: a lone symbol. -/
def Operator.ofWord? : Text → Option Operator
  | [c] => ofSymbol? c
  | _ => none

namespace Token

/-- The token that a word is. A longer word that begins with a minus sign is a negative number. -/
def ofWord (w : Text) : Token :=
  if w = ['('] then .leftBracket
  else if w = [')'] then .rightBracket
  else
    match Operator.ofWord? w with
    | some op => .operator op
    | none => .number (w.head? = some '-') w

/-- The tokens that the words of a line are. -/
def ofListing (t : Text) : List Token :=
  t.words.map ofWord

end Token

/-- The element that a word is: an operator, or else a number. -/
def Element.ofWord? (w : Text) : Option Element :=
  match Operator.ofWord? w with
  | some op => some (.operator op)
  | none => (Number.ofText? w).map .number

/-- The postfix form that a line is, if each of its words is an element. -/
def Postfix.ofListing? (t : Text) : Option Postfix :=
  t.words.mapM Element.ofWord?

end Calculator

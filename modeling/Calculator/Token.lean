import Calculator.Operator
import Calculator.Text.Words

/-!
# Tokens

A token is a number, an operator or a bracket. A number keeps its text as written, with the minus
sign that belongs to it; what the text stands for is decided later. `Token.listing` shows a list of
tokens, one word for each.
-/

namespace Calculator

/-- A smallest part of an expression. -/
inductive Token where
  /-- A number as written; a `negative` one carries its own minus sign. -/
  | number (negative : Bool) (text : Text)
  | operator (op : Operator)
  | leftBracket
  | rightBracket
  deriving DecidableEq

namespace Token

/-- The characters of a token. -/
def text : Token → Text
  | .number _ t => t
  | .operator op => [op.symbol]
  | .leftBracket => ['(']
  | .rightBracket => [')']

/-- An operand may end with this token: it is a number or a closing bracket. -/
def endsOperand : Token → Bool
  | .number _ _ => true
  | .rightBracket => true
  | _ => false

/-- The token is a bracket. -/
def isBracket : Token → Bool
  | .leftBracket => true
  | .rightBracket => true
  | _ => false

/-- The tokens as words of a line. -/
def listing (ts : List Token) : Text :=
  Text.unwords (ts.map text)

end Token

end Calculator

import Calculator.Postfix.Conversion
import Calculator.Token.Cut

/-!
# What tokens, forms and stacks hold

The numbers and the operators of a list of tokens and of a postfix form, the operators on the stack
of a conversion and the brackets that are open on it, each in the order in which they stand.
-/

namespace Calculator

namespace Token

/-- The operator that a token is. -/
def operator? : Token → Option Operator
  | .operator op => some op
  | _ => none

/-- The number that a token reads as. -/
def value? : Token → Option Double
  | .number _ t => Number.ofText? t
  | _ => none

def operators (ts : List Token) : List Operator :=
  ts.filterMap operator?

def numbers (ts : List Token) : List Token :=
  ts.filter isNumber

end Token

namespace Postfix

/-- The operators of a form. -/
def operators (es : Postfix) : List Operator :=
  es.filterMap fun
    | .operator op => some op
    | .number _ => none

/-- The numbers of a form. -/
def numbers (es : Postfix) : List Double :=
  es.filterMap fun
    | .number x => some x
    | .operator _ => none

/-- The operators that wait. -/
def waitingOperators (waiting : List Waiting) : List Operator :=
  waiting.filterMap fun
    | .operator op => some op
    | .leftBracket => none

/-- How many opening brackets wait. -/
def openBrackets (waiting : List Waiting) : Nat :=
  waiting.count .leftBracket

/-- Operators as they stand in a form. -/
def ofOperators (ops : List Operator) : Postfix :=
  ops.map .operator

/-- Operators as they stand on the stack. -/
def waitingFor (ops : List Operator) : List Waiting :=
  ops.map .operator

end Postfix

end Calculator

import Calculator.Number.Decimal
import Calculator.Token

/-!
# Faulty tokens

Which tokens of a list a conversion cannot take, told from the list alone. A number is faulty if it
does not read, wherever it stands; a closing bracket is faulty if no opening bracket before it waits
to be closed. A list can have many faulty tokens: `IsEarliestFault` says which error the first of
them stands for.
-/

namespace Calculator

namespace Token

/-- The token is an operator. -/
def isOperator : Token → Bool
  | .operator _ => true
  | _ => false

/-- Each opening bracket is closed: some beginning of what follows it closes more brackets than it
    opens. -/
def AllClosed (ts : List Token) : Prop :=
  ∀ before after, ts = before ++ .leftBracket :: after →
    ∃ p, p <+: after ∧ p.count .leftBracket < p.count .rightBracket

/-- The token is faulty behind the tokens `before`, and this is the error that it stands for. -/
inductive IsFault (before : List Token) : Token → Error → Prop where
  | unreadable (negative : Bool) {text : Text}
      (h : (Number.ofText? text : Option Double) = none) :
      IsFault before (.number negative text) .invalidExpression
  | unopened (h : AllClosed before) : IsFault before .rightBracket .unmatchedRight

/-- Some token is faulty. -/
def HasFault (ts : List Token) : Prop :=
  ∃ before tok after e, ts = before ++ tok :: after ∧ IsFault before tok e

/-- Some token is faulty and none before it is, and this is the error that it stands for. -/
def IsEarliestFault (ts : List Token) (e : Error) : Prop :=
  ∃ before tok after, ts = before ++ tok :: after ∧ IsFault before tok e ∧ ¬ HasFault before

end Token

end Calculator

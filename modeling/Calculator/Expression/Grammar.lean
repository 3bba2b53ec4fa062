import Calculator.Token

/-!
# The grammar of expressions

An expression is made of terms between `+` and `-`, a term of factors between `*` and `/`, and a
factor is a number or an expression in brackets. `Derives` is that grammar on tokens. What it asks
for can be told apart: brackets match (`depth?`), and operands and operators take turns
(`Alternates`), so that no operand follows an operand (`IsSpaced`).
-/

namespace Calculator

/-- The kinds of phrase of the grammar. -/
inductive Phrase where
  | expression
  | term
  | factor
  deriving DecidableEq

/-- The tokens are a phrase of a kind. -/
inductive Derives : Phrase → List Token → Prop where
  | expression {ts : List Token} (h : Derives .term ts) : Derives .expression ts
  | sum {op : Operator} {ts ts' : List Token} (hop : op = .addition ∨ op = .subtraction)
      (h : Derives .term ts) (h' : Derives .expression ts') :
      Derives .expression (ts ++ .operator op :: ts')
  | term {ts : List Token} (h : Derives .factor ts) : Derives .term ts
  | product {op : Operator} {ts ts' : List Token} (hop : op = .multiplication ∨ op = .division)
      (h : Derives .factor ts) (h' : Derives .term ts') :
      Derives .term (ts ++ .operator op :: ts')
  | number (negative : Bool) (text : Text) : Derives .factor [.number negative text]
  | brackets {ts : List Token} (h : Derives .expression ts) :
      Derives .factor (.leftBracket :: ts ++ [.rightBracket])

namespace Token

/-- An operand may start with this token: it is a number or an opening bracket. -/
def startsOperand : Token → Bool
  | .number _ _ => true
  | .leftBracket => true
  | _ => false

/-- Operands and operators take turns to the end, an operand last; `afterOperand` says whether one
    ends before the tokens. -/
def Alternates (afterOperand : Bool) : List Token → Prop
  | [] => afterOperand = true
  | tok :: ts => tok.startsOperand = !afterOperand ∧ Alternates tok.endsOperand ts

/-- No operand starts where an operand has just ended. -/
def IsSpaced (ts : List Token) : Prop :=
  ∀ pre s s' post, ts = pre ++ s :: s' :: post → ¬ (s.endsOperand = true ∧ s'.startsOperand = true)

/-- How many brackets are open after a token, where a closing bracket finds one to close. -/
def depthAfter? (depth : Nat) : Token → Option Nat
  | .leftBracket => some (depth + 1)
  | .rightBracket => if depth = 0 then none else some (depth - 1)
  | _ => some depth

/-- How many brackets are open after the tokens. -/
def depth? (depth : Nat) : List Token → Option Nat
  | [] => some depth
  | tok :: ts => (depthAfter? depth tok).bind fun depth' => depth? depth' ts

end Token

end Calculator

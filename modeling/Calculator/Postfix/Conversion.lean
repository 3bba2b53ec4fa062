import Calculator.Postfix
import Calculator.Token

/-!
# From tokens to the postfix form

`Postfix.ofTokens` passes numbers on at once and lets operators and opening brackets wait on a
stack. An operator first releases the waiting operators that hold at least as closely, so that
equal precedence groups to the left; a closing bracket releases all that wait above its opening
bracket; the end releases everything. Only brackets and the texts of numbers can be at fault:
whether each operator has its operands is decided by the value of the form. Main statement:
`shiftAll_append`, tokens leave to those that follow nothing but what waits.
-/

namespace Calculator

namespace Postfix

/-- What waits on the stack. -/
inductive Waiting where
  | operator (op : Operator)
  | leftBracket
  deriving DecidableEq

/-- The waiting operators that an operator releases, and what still waits. -/
def release (op : Operator) : List Waiting → Postfix × List Waiting
  | .operator top :: rest =>
      if op.precedence ≤ top.precedence then
        let (out, rest') := release op rest
        (.operator top :: out, rest')
      else ([], .operator top :: rest)
  | waiting => ([], waiting)

/-- The operators that a closing bracket releases, and what waits below its opening bracket. -/
def close : List Waiting → Except Error (Postfix × List Waiting)
  | [] => .error .unmatchedRight
  | .leftBracket :: rest => .ok ([], rest)
  | .operator top :: rest => (close rest).map fun (out, rest') => (.operator top :: out, rest')

/-- The operators that the end of the expression releases. -/
def flush : List Waiting → Except Error Postfix
  | [] => .ok []
  | .leftBracket :: _ => .error .unmatchedLeft
  | .operator top :: rest => (flush rest).map (.operator top :: ·)

/-- The elements that a token passes on, and what waits after it. -/
def shift (waiting : List Waiting) : Token → Except Error (Postfix × List Waiting)
  | .number _ text =>
      match Number.ofText? text with
      | some x => .ok ([.number x], waiting)
      | none => .error .invalidExpression
  | .operator op =>
      let (out, rest) := release op waiting
      .ok (out, .operator op :: rest)
  | .leftBracket => .ok ([], .leftBracket :: waiting)
  | .rightBracket => close waiting

/-- The elements that tokens pass on, and what waits after them. -/
def shiftAll (waiting : List Waiting) : List Token → Except Error (Postfix × List Waiting)
  | [] => .ok ([], waiting)
  | t :: ts =>
      match shift waiting t with
      | .error e => .error e
      | .ok (out, waiting') =>
          (shiftAll waiting' ts).map fun (out', waiting'') => (out ++ out', waiting'')

/-- The postfix form of tokens. -/
def ofTokens (ts : List Token) : Except Error Postfix :=
  match shiftAll [] ts with
  | .error e => .error e
  | .ok (out, waiting) => (flush waiting).map (out ++ ·)

/-- **Tokens that come first leave what waits to those that follow.** -/
theorem shiftAll_append (waiting : List Waiting) (ts ts' : List Token) :
    shiftAll waiting (ts ++ ts') =
      match shiftAll waiting ts with
      | .error e => .error e
      | .ok (out, waiting') =>
          (shiftAll waiting' ts').map fun (out', waiting'') => (out ++ out', waiting'') := by
  induction ts generalizing waiting with
  | nil => cases h : shiftAll waiting ts' <;> simp [shiftAll, h, Except.map]
  | cons t ts ih =>
      rw [List.cons_append, shiftAll, shiftAll]
      cases shift waiting t with
      | error e => rfl
      | ok r =>
          obtain ⟨out, waiting'⟩ := r
          simp only [ih]
          cases shiftAll waiting' ts with
          | error e => rfl
          | ok r' =>
              obtain ⟨out', waiting''⟩ := r'
              cases h : shiftAll waiting'' ts' <;> simp [Except.map, h, List.append_assoc]

end Postfix

end Calculator

import Calculator.Expression.Tree
import Calculator.Token
import Calculator.Token.Literal

/-!
# Written expressions

`Written p e ts` says that the tokens write the expression tree `e` so that it can stand where
operators of precedence `p` and higher are taken together: a left part keeps together what holds as
closely as its operator, a right part what holds more closely, and a part that does not is put into
brackets. Brackets may stand around any part. A place of precedence 0 takes every operator; a text
writes a tree if its tokens write it there (`Writes`).
-/

namespace Calculator

/-- A literal with the minus sign that belongs to it, if it has one. -/
structure Literal where
  negative : Bool
  digits : Text
  isLiteral : IsLiteral digits
  deriving DecidableEq

namespace Literal

/-- The characters of a literal. -/
def text (l : Literal) : Text :=
  if l.negative then '-' :: l.digits else l.digits

/-- The token of a literal. -/
def token (l : Literal) : Token :=
  .number l.negative l.text

/-- The number of a literal, the nearest to what its digits say. -/
def value (l : Literal) : Double :=
  (Number.ofText? l.text).getD .nan

end Literal

/-- The tokens write the tree, at a place that takes operators of a precedence and higher. -/
inductive Written : Nat → Tree Literal → List Token → Prop where
  | literal (p : Nat) (l : Literal) : Written p (.leaf l) [l.token]
  | brackets {p : Nat} {e : Tree Literal} {ts : List Token} (h : Written 0 e ts) :
      Written p e (.leftBracket :: ts ++ [.rightBracket])
  | operation {p : Nat} {op : Operator} {l r : Tree Literal} {ls rs : List Token}
      (hp : p ≤ op.precedence) (hl : Written op.precedence l ls)
      (hr : Written (op.precedence + 1) r rs) :
      Written p (.node op l r) (ls ++ .operator op :: rs)

/-- The text is an expression, blanks anywhere aside. -/
def Writes (t : Text) (e : Tree Literal) : Prop :=
  ∃ ts, Written 0 e ts ∧ t.clean = ts.flatMap Token.text

/-- **What can stand at a place can stand at every wider place.** -/
theorem Written.mono {p q : Nat} {e : Tree Literal} {ts : List Token} (h : Written p e ts)
    (hqp : q ≤ p) : Written q e ts := by
  cases h with
  | literal => exact .literal q _
  | brackets h => exact .brackets h
  | operation hp hl hr => exact .operation (Nat.le_trans hqp hp) hl hr

/-- Nothing is written by no tokens. -/
theorem Written.ne_nil {p : Nat} {e : Tree Literal} {ts : List Token} (h : Written p e ts) :
    ts ≠ [] := by
  cases h <;> simp

/-- The tokens of a tree with brackets only around the parts that the place would not take. -/
def Tree.render (p : Nat) : Tree Literal → List Token
  | .leaf l => [l.token]
  | .node op l r =>
      let ts := render op.precedence l ++ .operator op :: render (op.precedence + 1) r
      if p ≤ op.precedence then ts else .leftBracket :: ts ++ [.rightBracket]

/-- **Every tree is written with the brackets that it needs.** -/
theorem written_render (p : Nat) (e : Tree Literal) : Written p e (e.render p) := by
  induction e generalizing p with
  | leaf l => exact .literal p l
  | node op l r ihl ihr =>
      rw [Tree.render]
      split
      · next hp => exact .operation hp (ihl _) (ihr _)
      · exact .brackets (.operation (Nat.zero_le _) (ihl _) (ihr _))

end Calculator

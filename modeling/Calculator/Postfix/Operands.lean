import Calculator.Expression.Tree
import Calculator.Postfix.Contents

/-!
# Operands in a postfix form

What an operator of a postfix form finds before it. This file fixes

* `HasOperands` -- no operator lacks an operand, which is a matter of counting alone;
* `DividesByZero` -- a division is reached, and the right one of its operands is a zero;
* `Leaves` -- the form is made of trees, and a stack of their values.
-/

namespace Calculator

namespace Postfix

/-- Before each operator stand at least two more numbers than operators. -/
def HasOperands (es : Postfix) : Prop :=
  ∀ before op after, es = before ++ .operator op :: after →
    (operators before).length + 2 ≤ (numbers before).length

/-- Some division has both its operands, as has each operator before it, and the tree that is its
    right operand has a zero as its value; what follows is of no account. -/
def DividesByZero (es : Postfix) : Prop :=
  ∃ (before : Postfix) (right : Tree Double) (after : Postfix) (x : Double),
    es = before ++ right.postOrder ++ .operator .division :: after ∧
      HasOperands (before ++ right.postOrder ++ [.operator .division]) ∧
      right.value = .ok x ∧ x.isZero = true

/-- The elements are the postfix forms of trees one behind the other, and their values are the
    stack, that of the last tree on top. -/
inductive Leaves : Postfix → List Double → Prop where
  | nothing : Leaves [] []
  | tree {es : Postfix} {stack : List Double} {x : Double} (t : Tree Double) (h : Leaves es stack)
      (hx : t.value = .ok x) : Leaves (es ++ t.postOrder) (x :: stack)

/-- What the stack refuses an operator with: an operand is lacking, or a zero is on top of it for a
    division. -/
inductive Refuses : List Double → Operator → Error → Prop where
  | lacks {stack : List Double} (op : Operator) (h : stack.length < 2) :
      Refuses stack op .invalidExpression
  | zero {second : Double} (first : Double) (stack : List Double) (h : second.isZero = true) :
      Refuses (second :: first :: stack) .division .divisionByZero

variable {es es' : Postfix}

/-- The value on top is that of the last tree. -/
theorem leaves_cons_iff {x : Double} {stack : List Double} :
    Leaves es (x :: stack) ↔
      ∃ before, ∃ t : Tree Double, es = before ++ t.postOrder ∧ Leaves before stack ∧
        t.value = .ok x := by
  constructor
  · intro h
    obtain _ | ⟨t, hbefore, hx⟩ := h
    exact ⟨_, t, rfl, hbefore, hx⟩
  · rintro ⟨before, t, rfl, hbefore, hx⟩
    exact .tree t hbefore hx

theorem HasOperands.left (h : HasOperands (es ++ es')) : HasOperands es := by
  rintro before op after rfl
  exact h before op (after ++ es') (by simp)

/-- One operator more has its operands if two numbers more than operators stand before it. -/
theorem hasOperands_concat {op : Operator} :
    HasOperands (es ++ [.operator op]) ↔
      HasOperands es ∧ (operators es).length + 2 ≤ (numbers es).length := by
  constructor
  · intro h
    exact ⟨h.left, h es op [] rfl⟩
  · rintro ⟨h, hlast⟩ before op' after heq
    rcases after.eq_nil_or_concat with rfl | ⟨after, e, rfl⟩
    · obtain ⟨rfl, -⟩ := List.append_inj' heq rfl
      exact hlast
    · rw [List.concat_eq_append, ← List.cons_append, ← List.append_assoc] at heq
      obtain ⟨rfl, -⟩ := List.append_inj' heq rfl
      exact h before op' after rfl

end Postfix

end Calculator

import Calculator.Postfix

/-!
# Expression trees

An expression tree has operands at its leaves and operators at its inner nodes. This file fixes its
two readings:

* `Tree.value` -- the value of the left part, then that of the right part, then the operation;
* `Tree.postOrder` -- the postfix form: both parts in order, then the operator.

Main statements: `value_postOrder`, the postfix form of a tree has the value of the tree, or the
error that the tree runs into first; `append_postOrder_inj`, a postfix form is read in one way from
its end.
-/

namespace Calculator

/-- An expression tree with operands of a type. -/
inductive Tree (α : Type) where
  | leaf (operand : α)
  | node (op : Operator) (left right : Tree α)
  deriving DecidableEq

namespace Tree

variable {α β : Type}

/-- The tree with each operand replaced. -/
def map (g : α → β) : Tree α → Tree β
  | leaf a => leaf (g a)
  | node op l r => node op (map g l) (map g r)

/-- The value of a tree of numbers, from left to right. -/
def value : Tree Double → Except Error Double
  | leaf x => .ok x
  | node op l r => do
      let x ← value l
      let y ← value r
      op.apply x y

/-- The postfix form of a tree of numbers. -/
def postOrder : Tree Double → Postfix
  | leaf x => [.number x]
  | node op l r => postOrder l ++ postOrder r ++ [.operator op]

/-- The elements of a tree put its value on top of whatever stack they find. -/
theorem run_postOrder (t : Tree Double) (stack : List Double) (es : Postfix) :
    Postfix.run stack (t.postOrder ++ es) =
      t.value.bind fun x => Postfix.run (x :: stack) es := by
  induction t generalizing stack es with
  | leaf x => rfl
  | node op l r ihl ihr =>
      simp only [postOrder, List.append_assoc, List.cons_append, List.nil_append, ihl, ihr, value]
      cases l.value with
      | error e => rfl
      | ok x =>
          cases r.value with
          | error e => rfl
          | ok y =>
              simp only [Except.bind, bind, Postfix.run]
              cases op.apply x y <;> rfl

/-- **The postfix form of a tree has the value of the tree.** -/
theorem value_postOrder (t : Tree Double) : t.postOrder.value = t.value := by
  have h := run_postOrder t [] []
  rw [List.append_nil] at h
  rw [Postfix.value, h]
  cases t.value <;> rfl

/-- **A postfix form is read in one way from its end**: at most one tree ends it, whatever stands
    before. -/
theorem append_postOrder_inj {es es' : Postfix} {t t' : Tree Double} :
    es ++ t.postOrder = es' ++ t'.postOrder ↔ es = es' ∧ t = t' := by
  constructor
  · intro h
    induction t generalizing es es' t' with
    | leaf x =>
        cases t' with
        | leaf x' =>
            obtain ⟨rfl, hx⟩ := List.append_inj' h rfl
            obtain rfl : x = x' := by simpa [postOrder] using hx
            exact ⟨rfl, rfl⟩
        | node op' l' r' =>
            rw [postOrder, postOrder, ← List.append_assoc] at h
            exact absurd (List.append_inj' h rfl).2 (by simp)
    | node op l r ihl ihr =>
        cases t' with
        | leaf x' =>
            rw [postOrder, postOrder, ← List.append_assoc] at h
            exact absurd (List.append_inj' h rfl).2 (by simp)
        | node op' l' r' =>
            -- the operator is last, the right part ends what is before it, then the left part
            simp only [postOrder, ← List.append_assoc] at h
            obtain ⟨hparts, hop⟩ := List.append_inj' h rfl
            obtain rfl : op = op' := by simpa using hop
            obtain ⟨hleft, rfl⟩ := ihr hparts
            obtain ⟨rfl, rfl⟩ := ihl hleft
            exact ⟨rfl, rfl⟩
  · rintro ⟨rfl, rfl⟩
    rfl

/-- A postfix form is the post-order of at most one tree. -/
theorem postOrder_inj {t t' : Tree Double} : t.postOrder = t'.postOrder ↔ t = t' := by
  have h : [] ++ t.postOrder = [] ++ t'.postOrder ↔ [] = [] ∧ t = t' := append_postOrder_inj
  simpa using h

end Tree

end Calculator

import Calculator.Proofs.Expression.Grammar
import Calculator.Proofs.Postfix.Waiting

/-!
# What a conversion keeps

A conversion passes on the numbers of its tokens in their order, loses and invents no operator, and
has as many brackets waiting as are open (`Conserves`). Each token does so (`conserves_shift`), so
does each list of tokens (`conserves_shiftAll`), and so does the conversion as a whole
(`conserves_ofTokens`): it drops the brackets and nothing else (`length_ofTokens`). A form that has
a value has one number more than it has operators (`length_numbers_of_value`).
-/

namespace Calculator

/-! ## 1. Contents of a list in two parts -/

namespace Token

@[simp] theorem operators_append (ts ts' : List Token) :
    operators (ts ++ ts') = operators ts ++ operators ts' :=
  List.filterMap_append

@[simp] theorem numbers_append (ts ts' : List Token) :
    numbers (ts ++ ts') = numbers ts ++ numbers ts' :=
  List.filter_append ..

/-- A token is a number, an operator or a bracket. -/
theorem length_eq_parts (ts : List Token) :
    ts.length = (numbers ts).length + (operators ts).length + ts.countP isBracket := by
  induction ts with
  | nil => rfl
  | cons tok ts ih =>
      cases tok with
      | number negative t =>
          show ts.length + 1 = (numbers ts).length + 1 + (operators ts).length + ts.countP isBracket
          omega
      | operator op =>
          show ts.length + 1 = (numbers ts).length + ((operators ts).length + 1) +
            ts.countP isBracket
          omega
      | leftBracket | rightBracket =>
          rw [List.countP_cons_of_pos rfl]
          show ts.length + 1 =
            (numbers ts).length + (operators ts).length + (ts.countP isBracket + 1)
          omega

end Token

namespace Postfix

open Token (value? depth?)

@[simp] theorem operators_append (es es' : Postfix) :
    operators (es ++ es') = operators es ++ operators es' :=
  List.filterMap_append

@[simp] theorem numbers_append (es es' : Postfix) :
    numbers (es ++ es') = numbers es ++ numbers es' :=
  List.filterMap_append

@[simp] theorem waitingOperators_append (waiting waiting' : List Waiting) :
    waitingOperators (waiting ++ waiting') =
      waitingOperators waiting ++ waitingOperators waiting' :=
  List.filterMap_append

@[simp] theorem openBrackets_append (waiting waiting' : List Waiting) :
    openBrackets (waiting ++ waiting') = openBrackets waiting + openBrackets waiting' :=
  List.count_append

@[simp] theorem operators_ofOperators (ops : List Operator) :
    operators (ofOperators ops) = ops := by
  induction ops with
  | nil => rfl
  | cons op ops ih => exact congrArg (op :: ·) ih

@[simp] theorem numbers_ofOperators (ops : List Operator) : numbers (ofOperators ops) = [] := by
  induction ops with
  | nil => rfl
  | cons op ops ih => exact ih

@[simp] theorem waitingOperators_waitingFor (ops : List Operator) :
    waitingOperators (waitingFor ops) = ops := by
  induction ops with
  | nil => rfl
  | cons op ops ih => exact congrArg (op :: ·) ih

@[simp] theorem openBrackets_waitingFor (ops : List Operator) :
    openBrackets (waitingFor ops) = 0 := by
  induction ops with
  | nil => rfl
  | cons op ops ih => exact ih

theorem waitingOperators_leftBracket (waiting : List Waiting) :
    waitingOperators (.leftBracket :: waiting) = waitingOperators waiting := rfl

theorem openBrackets_leftBracket (waiting : List Waiting) :
    openBrackets (.leftBracket :: waiting) = openBrackets waiting + 1 :=
  List.count_cons_self

theorem openBrackets_operator (op : Operator) (waiting : List Waiting) :
    openBrackets (.operator op :: waiting) = openBrackets waiting :=
  List.count_cons_of_ne (by simp)

/-! ## 2. The law -/

/-- The tokens pass on the numbers that they hold, the operators passed on or left waiting are those
    that they hold or find waiting, and the brackets left waiting are those still open. -/
structure Conserves (waiting : List Waiting) (ts : List Token) (out : Postfix)
    (waiting' : List Waiting) : Prop where
  numbers : (Postfix.numbers out).map some = (Token.numbers ts).map value?
  operators : (Postfix.operators out ++ waitingOperators waiting').Perm
    (waitingOperators waiting ++ Token.operators ts)
  depth : depth? (openBrackets waiting) ts = some (openBrackets waiting')

theorem Conserves.nil (waiting : List Waiting) : Conserves waiting [] [] waiting where
  numbers := rfl
  operators := by
    rw [Token.operators, List.filterMap_nil, List.append_nil]
    exact List.Perm.refl _
  depth := rfl

theorem Conserves.append {waiting waiting' waiting'' : List Waiting} {ts ts' : List Token}
    {out out' : Postfix} (h : Conserves waiting ts out waiting')
    (h' : Conserves waiting' ts' out' waiting'') :
    Conserves waiting (ts ++ ts') (out ++ out') waiting'' where
  numbers := by
    rw [Postfix.numbers_append, List.map_append, h.numbers, h'.numbers, Token.numbers_append,
      List.map_append]
  operators := by
    rw [Postfix.operators_append, Token.operators_append, List.append_assoc]
    have hfirst := h.operators.append_right (Token.operators ts')
    have hsecond := h'.operators.append_left (Postfix.operators out)
    rw [← List.append_assoc (Postfix.operators out) (waitingOperators waiting')] at hsecond
    rw [← List.append_assoc (waitingOperators waiting)]
    exact hsecond.trans hfirst
  depth := by
    rw [Token.depth?_append, h.depth]
    exact h'.depth

/-- **What one token keeps.** -/
theorem conserves_shift {waiting waiting' : List Waiting} {tok : Token} {out : Postfix}
    (h : shift waiting tok = .ok (out, waiting')) : Conserves waiting [tok] out waiting' := by
  rcases shift_eq_ok_iff.1 h with ⟨negative, text, x, rfl, hx, rfl, rfl⟩ |
    ⟨op, ops, rest, rfl, rfl, -, -, rfl, rfl⟩ | ⟨rfl, rfl, rfl⟩ | ⟨ops, rfl, rfl, rfl⟩
  · refine ⟨?_, ?_, rfl⟩
    · show [some x] = [Number.ofText? text]
      rw [hx]
    · show (waitingOperators waiting').Perm (waitingOperators waiting' ++ [])
      rw [List.append_nil]
  · refine ⟨by rw [numbers_ofOperators]; rfl, ?_, ?_⟩
    · rw [operators_ofOperators, waitingOperators_append, waitingOperators_waitingFor]
      show (ops ++ op :: waitingOperators rest).Perm (ops ++ waitingOperators rest ++ [op])
      rw [List.append_assoc]
      exact (List.perm_append_singleton op (waitingOperators rest)).symm.append_left ops
    · show some (openBrackets _) = some (openBrackets _)
      rw [openBrackets_append, openBrackets_waitingFor, Nat.zero_add, openBrackets_operator]
  · refine ⟨rfl, ?_, ?_⟩
    · show (waitingOperators waiting).Perm (waitingOperators waiting ++ [])
      rw [List.append_nil]
    · rw [openBrackets_leftBracket]
      rfl
  · refine ⟨by rw [numbers_ofOperators]; rfl, ?_, ?_⟩
    · rw [operators_ofOperators, waitingOperators_append, waitingOperators_waitingFor,
        waitingOperators_leftBracket]
      show (ops ++ waitingOperators waiting').Perm (ops ++ waitingOperators waiting' ++ [])
      rw [List.append_nil]
    · rw [openBrackets_append, openBrackets_waitingFor, Nat.zero_add, openBrackets_leftBracket]
      rfl

/-- **What a list of tokens keeps.** -/
theorem conserves_shiftAll {waiting waiting' : List Waiting} {ts : List Token} {out : Postfix}
    (h : shiftAll waiting ts = .ok (out, waiting')) : Conserves waiting ts out waiting' := by
  induction ts generalizing waiting out with
  | nil =>
      obtain ⟨rfl, rfl⟩ := Prod.mk.inj (Except.ok.inj h)
      exact Conserves.nil waiting
  | cons tok ts ih =>
      obtain ⟨first, waiting₁, others, hs, hr, rfl⟩ := shiftAll_cons_eq_ok_iff.1 h
      exact (conserves_shift hs).append (ih hr)

/-- **What a conversion keeps**: the numbers in their order, the operators, and every bracket that
    was opened is closed. -/
theorem conserves_ofTokens {ts : List Token} {es : Postfix} (h : ofTokens ts = .ok es) :
    (numbers es).map some = (Token.numbers ts).map value? ∧
      (operators es).Perm (Token.operators ts) ∧ depth? 0 ts = some 0 := by
  obtain ⟨out, ops, hs, rfl⟩ := ofTokens_eq_ok_iff.1 h
  obtain ⟨hnum, hops, hdepth⟩ := conserves_shiftAll hs
  refine ⟨?_, ?_, ?_⟩
  · rw [numbers_append, numbers_ofOperators, List.append_nil]
    exact hnum
  · rw [waitingOperators_waitingFor] at hops
    rw [operators_append, operators_ofOperators]
    exact hops
  · rw [openBrackets_waitingFor] at hdepth
    exact hdepth

theorem length_eq_numbers_add_operators (es : Postfix) :
    es.length = (numbers es).length + (operators es).length := by
  induction es with
  | nil => rfl
  | cons e es ih =>
      cases e with
      | number x =>
          show es.length + 1 = (numbers es).length + 1 + (operators es).length
          omega
      | operator op =>
          show es.length + 1 = (numbers es).length + ((operators es).length + 1)
          omega

/-- **A conversion drops the brackets and nothing else.** -/
theorem length_ofTokens {ts : List Token} {es : Postfix} (h : ofTokens ts = .ok es) :
    es.length + ts.countP Token.isBracket = ts.length := by
  obtain ⟨hnumbers, hoperators, -⟩ := conserves_ofTokens h
  have hnumbers : (numbers es).length = (Token.numbers ts).length := by
    simpa using congrArg List.length hnumbers
  rw [length_eq_numbers_add_operators, hnumbers, hoperators.length_eq]
  exact (Token.length_eq_parts ts).symm

/-! ## 3. Values -/

/-- A number adds a value to the stack, an operator takes one away. -/
theorem length_of_run {stack stack' : List Double} {es : Postfix} (h : run stack es = .ok stack') :
    stack'.length + (operators es).length = stack.length + (numbers es).length := by
  fun_induction run stack es with
  | case1 stack =>
      obtain rfl := Except.ok.inj h
      rfl
  | case2 stack x es ih =>
      have ih := ih h
      show stack'.length + (operators es).length = stack.length + ((numbers es).length + 1)
      rw [List.length_cons] at ih
      omega
  | case3 second first stack op es x hop ih =>
      have ih := ih h
      show stack'.length + ((operators es).length + 1) = stack.length + 2 + (numbers es).length
      rw [List.length_cons] at ih
      omega
  | case4 => simp at h
  | case5 => simp at h

/-- **A form that has a value has one number more than it has operators.** -/
theorem length_numbers_of_value {es : Postfix} {x : Double} (h : es.value = .ok x) :
    (numbers es).length = (operators es).length + 1 := by
  have := length_of_run (value_eq_ok_iff.1 h)
  simp at this
  omega

end Postfix

end Calculator

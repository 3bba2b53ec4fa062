import Calculator.Postfix.Operands
import Calculator.Proofs.Expression.RoundTrip
import Calculator.Proofs.Postfix.Faults

/-!
# The value of a postfix form

A run puts trees together: it leaves a stack exactly if the elements are the postfix forms of trees
with these values (`run_eq_ok_iff`). It stops at the first operator that lacks an operand or divides
by a zero (`run_eq_error_iff`). Main statement: `value_decided`, which forms have a value, which
divide by a zero, and that the others are invalid.
-/

namespace Calculator

namespace Postfix

/-! ## 1. What a run leaves -/

/-- The elements of a tree put its value on top. -/
theorem run_append_postOrder {es : Postfix} {stack : List Double} {t : Tree Double} {x : Double}
    (h : run [] es = .ok stack) (hx : t.value = .ok x) :
    run [] (es ++ t.postOrder) = .ok (x :: stack) := by
  have htree := t.run_postOrder stack []
  rw [List.append_nil, hx] at htree
  rw [run_append, h]
  exact htree

theorem run_of_leaves {es : Postfix} {stack : List Double} (h : Leaves es stack) :
    run [] es = .ok stack := by
  induction h with
  | nothing => rfl
  | tree t _ hx ih => exact run_append_postOrder ih hx

/-- **A run keeps the stack made of trees**: a number is a tree of its own, an operator makes one
    tree of the last two. -/
theorem leaves_run {before es : Postfix} {stack stack' : List Double}
    (hbefore : Leaves before stack) (h : run stack es = .ok stack') :
    Leaves (before ++ es) stack' := by
  fun_induction run stack es generalizing before with
  | case1 stack =>
      obtain rfl := Except.ok.inj h
      rwa [List.append_nil]
  | case2 stack x es ih =>
      have hleaf : Leaves (before ++ [.number x]) (x :: stack) := .tree (.leaf x) hbefore rfl
      rw [List.append_cons]
      exact ih hleaf h
  | case3 second first stack op es x hop ih =>
      obtain ⟨_, right, rfl, hfirsts, hsecond⟩ := leaves_cons_iff.1 hbefore
      obtain ⟨others, left, rfl, hothers, hfirst⟩ := leaves_cons_iff.1 hfirsts
      have hvalue : (Tree.node op left right).value = .ok x := by
        rw [Tree.value, hfirst, hsecond]
        exact hop
      have heq : others ++ (Tree.node op left right).postOrder =
          others ++ left.postOrder ++ right.postOrder ++ [.operator op] := by
        simp [Tree.postOrder]
      rw [List.append_cons, ← heq]
      exact ih (.tree _ hothers hvalue) h
  | case4 => simp at h
  | case5 => simp at h

/-- **A run leaves a stack exactly if the elements are made of trees with these values.** -/
theorem run_eq_ok_iff {es : Postfix} {stack : List Double} :
    run [] es = .ok stack ↔ Leaves es stack :=
  ⟨leaves_run .nothing, run_of_leaves⟩

theorem hasOperands_of_run {es : Postfix} {stack : List Double} (h : run [] es = .ok stack) :
    es.HasOperands := by
  rintro before op after rfl
  rw [run_append] at h
  obtain ⟨reached, hbefore, hafter⟩ := bind_eq_ok_iff.1 h
  have hlength := length_of_run hbefore
  rcases reached with _ | ⟨second, _ | ⟨first, reached⟩⟩
  · exact nomatch hafter
  · exact nomatch hafter
  · simp only [List.length_cons, List.length_nil] at hlength
    omega

/-! ## 2. Where a run stops -/

/-- **A run stops at the first operator that the stack refuses.** -/
theorem run_eq_error_iff {stack : List Double} {es : Postfix} {e : Error} :
    run stack es = .error e ↔
      ∃ before op after reached, es = before ++ .operator op :: after ∧
        run stack before = .ok reached ∧ Refuses reached op e := by
  constructor
  · intro h
    fun_induction run stack es with
    | case1 => simp at h
    | case2 stack x es ih =>
        obtain ⟨before, op, after, reached, rfl, hbefore, hrefuses⟩ := ih h
        exact ⟨.number x :: before, op, after, reached, rfl, hbefore, hrefuses⟩
    | case3 second first stack op es x hop ih =>
        obtain ⟨before, op', after, reached, rfl, hbefore, hrefuses⟩ := ih h
        refine ⟨.operator op :: before, op', after, reached, rfl, ?_, hrefuses⟩
        rw [run, hop]
        exact hbefore
    | case4 second first stack op es e' hop =>
        obtain rfl := Except.error.inj h
        obtain ⟨rfl, hzero, rfl⟩ := Operator.apply_eq_error_iff.1 hop
        exact ⟨[], .division, es, _, rfl, rfl, .zero first stack hzero⟩
    | case5 stack op es hfew =>
        obtain rfl := Except.error.inj h
        refine ⟨[], op, es, stack, rfl, rfl, .lacks op ?_⟩
        rcases stack with _ | ⟨second, _ | ⟨first, stack⟩⟩
        · exact Nat.zero_lt_two
        · exact Nat.one_lt_two
        · exact (hfew second first stack rfl).elim
  · rintro ⟨before, op, after, reached, rfl, hbefore, hrefuses⟩
    rw [run_append, hbefore]
    show run reached (.operator op :: after) = .error e
    cases hrefuses with
    | lacks _ hfew =>
        rcases reached with _ | ⟨second, _ | ⟨first, reached⟩⟩
        · rfl
        · rfl
        · simp only [List.length_cons] at hfew
          omega
    | @zero second first stack hzero =>
        have hop : Operator.division.apply first second = .error .divisionByZero :=
          Operator.apply_eq_error_iff.2 ⟨rfl, hzero, rfl⟩
        rw [run, hop]

/-- Where no operator lacks an operand, a run stops at nothing but a zero divisor. -/
theorem HasOperands.run_eq_error {es : Postfix} {e : Error} (h : es.HasOperands)
    (hrun : run [] es = .error e) : e = .divisionByZero := by
  obtain ⟨before, op, after, reached, hes, hbefore, hrefuses⟩ := run_eq_error_iff.1 hrun
  cases hrefuses with
  | lacks _ hfew =>
      have hcount := h before op after hes
      have hlength := length_of_run hbefore
      rw [List.length_nil] at hlength
      omega
  | zero => rfl

theorem DividesByZero.of_run {es : Postfix} (h : run [] es = .error .divisionByZero) :
    es.DividesByZero := by
  obtain ⟨before, op, after, reached, hes, hbefore, hrefuses⟩ := run_eq_error_iff.1 h
  obtain _ | ⟨first, stack, hzero⟩ := hrefuses
  have hoperands : HasOperands (before ++ [.operator .division]) := by
    have hlength := length_of_run hbefore
    simp only [List.length_cons, List.length_nil] at hlength
    exact hasOperands_concat.2 ⟨hasOperands_of_run hbefore, by omega⟩
  -- the tree of the value on top is the right operand
  obtain ⟨_, right, rfl, -, hsecond⟩ := leaves_cons_iff.1 (run_eq_ok_iff.1 hbefore)
  exact ⟨_, right, after, _, hes, hoperands, hsecond, hzero⟩

theorem DividesByZero.run_eq_error {es : Postfix} (h : es.DividesByZero) :
    run [] es = .error .divisionByZero := by
  obtain ⟨before, right, after, x, rfl, hdivision, hx, hzero⟩ := h
  obtain ⟨hoperands, hcount⟩ := hasOperands_concat.1 hdivision
  cases hbefore : run [] before with
  | error e =>
      obtain rfl := hoperands.left.run_eq_error hbefore
      rw [List.append_assoc, run_append, hbefore]
      rfl
  | ok stack =>
      have hright := run_append_postOrder hbefore hx
      have hlength := length_of_run hright
      rcases stack with _ | ⟨first, stack⟩
      · simp only [List.length_cons, List.length_nil] at hlength
        omega
      · exact run_eq_error_iff.2 ⟨_, _, after, _, rfl, hright, .zero first stack hzero⟩

/-! ## 3. Values -/

variable {es : Postfix}

/-- **A form has a value exactly if it is the post-order of a tree with this value.** -/
theorem value_eq_ok_iff_postOrder {x : Double} :
    es.value = .ok x ↔ ∃ t : Tree Double, t.postOrder = es ∧ t.value = .ok x := by
  constructor
  · intro h
    obtain ⟨_, t, rfl, hnothing, hx⟩ := leaves_cons_iff.1 (run_eq_ok_iff.1 (value_eq_ok_iff.1 h))
    cases hnothing
    exact ⟨t, rfl, hx⟩
  · intro ⟨t, ht, hx⟩
    rw [← ht, Tree.value_postOrder, hx]

/-- **A form divides by a zero exactly if its run does.** -/
theorem value_eq_divisionByZero_iff : es.value = .error .divisionByZero ↔ es.DividesByZero := by
  constructor
  · intro h
    obtain hrun | ⟨stack, -, hresult⟩ := bind_eq_error_iff.1 h
    · exact .of_run hrun
    · rcases stack with _ | ⟨x, _ | ⟨y, stack⟩⟩ <;> exact nomatch hresult
  · intro h
    rw [value, h.run_eq_error]
    rfl

/-- What neither has a value nor divides by a zero is invalid. -/
theorem value_eq_invalidExpression_iff :
    es.value = .error .invalidExpression ↔
      (∀ x, es.value ≠ .ok x) ∧ es.value ≠ .error .divisionByZero := by
  cases h : es.value with
  | ok x => simp
  | error e => obtain rfl | rfl := value_eq_error h <;> simp

/-- Without a division by a zero counting decides. -/
theorem exists_value_iff (h : ¬ es.DividesByZero) :
    (∃ x, es.value = .ok x) ↔
      es.HasOperands ∧ (numbers es).length = (operators es).length + 1 := by
  constructor
  · intro ⟨x, hx⟩
    exact ⟨hasOperands_of_run (value_eq_ok_iff.1 hx), length_numbers_of_value hx⟩
  · intro ⟨hoperands, hcount⟩
    cases hrun : run [] es with
    | error e =>
        obtain rfl := hoperands.run_eq_error hrun
        exact absurd (.of_run hrun) h
    | ok stack =>
        have hlength := length_of_run hrun
        rw [List.length_nil, Nat.zero_add, hcount] at hlength
        obtain ⟨x, rfl⟩ : ∃ x, stack = [x] := List.length_eq_one_iff.1 (by omega)
        exact ⟨x, value_eq_ok_iff.2 hrun⟩

/-- **What becomes of a postfix form.** A form is the post-order of at most one tree. It has a value
    exactly if it is that of a tree with this value; it divides by a zero exactly if a division is
    reached with both its operands, the right one a zero, whatever follows; all other forms are
    invalid. Without such a division counting decides whether there is a value: no operator lacks an
    operand, and in the end there is one number more than there are operators. -/
theorem value_decided (es : Postfix) :
    (∀ t t' : Tree Double, t.postOrder = es → t'.postOrder = es → t = t') ∧
    (∀ x, es.value = .ok x ↔ ∃ t : Tree Double, t.postOrder = es ∧ t.value = .ok x) ∧
    (es.value = .error .divisionByZero ↔ es.DividesByZero) ∧
    (es.value = .error .invalidExpression ↔
      (¬ ∃ (t : Tree Double) (x : Double), t.postOrder = es ∧ t.value = .ok x) ∧
        ¬ es.DividesByZero) ∧
    (¬ es.DividesByZero →
      ((∃ x, es.value = .ok x) ↔
        es.HasOperands ∧ (numbers es).length = (operators es).length + 1)) := by
  have hvalue : (∀ x, es.value ≠ .ok x) ↔
      ¬ ∃ (t : Tree Double) (x : Double), t.postOrder = es ∧ t.value = .ok x := by
    rw [exists_comm, not_exists]
    exact forall_congr' fun x => not_congr value_eq_ok_iff_postOrder
  refine ⟨fun t t' ht ht' => Tree.postOrder_inj.1 (ht.trans ht'.symm),
    fun x => value_eq_ok_iff_postOrder, value_eq_divisionByZero_iff, ?_, exists_value_iff⟩
  rw [value_eq_invalidExpression_iff, hvalue, ← value_eq_divisionByZero_iff]

/-- The first of two faults counts: here the zero, though an operand is lacking behind it. -/
example (x : Double) : value [.number x, .number (Number.zero true), .operator .division,
    .operator .addition] = .error .divisionByZero :=
  rfl

end Postfix

end Calculator

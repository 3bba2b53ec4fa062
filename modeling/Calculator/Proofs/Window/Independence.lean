import Calculator.Window.Panels

/-!
# The two panels do not interfere

An action that does not concern a panel leaves it as it is, so a panel after some actions is the
panel after those of them that concern it (`ExpressionPanel.run_filter`,
`OperationPanel.run_filter`). Whether the working is unfolded follows from how often its button was
pressed (`unfolded_run`). Main statement: `run_independent`, what each panel is after a session
follows from the actions of that panel and the resets alone, so it does not matter how the panels
take turns between two resets.
-/

namespace Calculator

/-! ## 1. One panel -/

/-- What changes nothing can be left out. -/
theorem foldl_filter_of_unchanged {α β : Type} {f : β → α → β} {p : α → Bool}
    (h : ∀ b a, p a = false → f b a = b) (b : β) (l : List α) :
    (l.filter p).foldl f b = l.foldl f b := by
  induction l generalizing b with
  | nil => rfl
  | cons a l ih =>
      cases hp : p a with
      | true => rw [List.filter_cons_of_pos hp, List.foldl_cons, List.foldl_cons, ih]
      | false =>
          rw [List.filter_cons_of_neg (Bool.eq_false_iff.1 hp), List.foldl_cons, h b a hp, ih]

/-- **A panel for an expression sees only its own actions.** -/
theorem ExpressionPanel.run_filter (p : ExpressionPanel) (actions : List Action) :
    p.run (actions.filter Action.concernsExpression) = p.run actions :=
  foldl_filter_of_unchanged (fun q _ h => q.act_of_not_concernsExpression h) p actions

/-- **A panel for one operation sees only its own actions.** -/
theorem OperationPanel.run_filter (p : OperationPanel) (actions : List Action) :
    p.run (actions.filter Action.concernsOperation) = p.run actions :=
  foldl_filter_of_unchanged (fun q _ h => q.act_of_not_concernsOperation h) p actions

/-! ## 2. The whole session -/

namespace Session

variable {s : Session} {actions others : List Action}

/-- **The working is turned over exactly if its button was pressed an odd number of times.** -/
theorem unfolded_run (s : Session) (actions : List Action) :
    (s.run actions).unfolded =
      (s.unfolded ^^ decide (actions.count (.press .working) % 2 = 1)) := by
  induction actions generalizing s with
  | nil => exact (Bool.xor_false _).symm
  | cons a actions ih =>
      have hrun : (s.run (a :: actions)).unfolded = ((s.act a).run actions).unfolded := rfl
      rw [hrun, ih, List.count_cons]
      by_cases ha : a = .press .working
      · have hact : (s.act a).unfolded = !s.unfolded := if_pos ha
        have hparity : decide ((actions.count (.press .working) + 1) % 2 = 1) =
            !decide (actions.count (.press .working) % 2 = 1) := by
          rw [← decide_not]
          exact decide_eq_decide.2 (by omega)
        rw [hact, if_pos (by simpa using ha), hparity, Bool.not_xor, Bool.xor_not]
      · have hact : (s.act a).unfolded = s.unfolded := if_neg ha
        rw [hact, if_neg (by simpa using ha), Nat.add_zero]

/-- Two histories in which each panel has the same actions in the same order, the resets among them
    in the same places; how the panels take turns is left open. -/
structure SamePerPanel (actions others : List Action) : Prop where
  expression : actions.filter Action.concernsExpression = others.filter Action.concernsExpression
  operation : actions.filter Action.concernsOperation = others.filter Action.concernsOperation
  folds : actions.count (.press .working) = others.count (.press .working)

theorem expression_run_congr (h : actions.filter Action.concernsExpression =
      others.filter Action.concernsExpression) :
    (s.run actions).window.expression = (s.run others).window.expression := by
  rw [expression_run, expression_run, ← ExpressionPanel.run_filter, h, ExpressionPanel.run_filter]

theorem operation_run_congr (h : actions.filter Action.concernsOperation =
      others.filter Action.concernsOperation) :
    (s.run actions).window.operation = (s.run others).window.operation := by
  rw [operation_run, operation_run, ← OperationPanel.run_filter, h, OperationPanel.run_filter]

end Session

/-- **The two panels do not interfere.** After any actions the panel for one operation is what its
    own actions and the resets make of it, the panel for an expression is what its own actions and
    the resets make of it, and the working is folded as before exactly if its button was pressed an
    even number of times, resets or not. So two histories with the same actions for each panel and
    the resets in the same places lead to the same state: a drawing, which takes the keyboard back
    from the entry, leaves nothing to tell them apart. -/
theorem run_independent (s : Session) (actions : List Action) :
    (s.run actions).window.operation =
        (s.run (actions.filter Action.concernsOperation)).window.operation ∧
      (s.run actions).window.expression =
        (s.run (actions.filter Action.concernsExpression)).window.expression ∧
      (s.run actions).unfolded =
        (s.unfolded ^^ decide (actions.count (.press .working) % 2 = 1)) ∧
      ∀ others, Session.SamePerPanel actions others →
        (s.run actions).act .look = (s.run others).act .look := by
  have hdrawn : ∀ {r r' : Session}, r.window.operation = r'.window.operation →
      r.window.expression = r'.window.expression → r.unfolded = r'.unfolded →
      r.act .look = r'.act .look := by
    rintro ⟨⟨_, _, _⟩, _⟩ ⟨⟨_, _, _⟩, _⟩ rfl rfl rfl
    rfl
  refine ⟨Session.operation_run_congr ?_, Session.expression_run_congr ?_, s.unfolded_run actions,
    fun others h => ?_⟩
  · rw [List.filter_filter]
    simp
  · rw [List.filter_filter]
    simp
  · exact hdrawn (Session.operation_run_congr h.operation)
      (Session.expression_run_congr h.expression)
      (by rw [Session.unfolded_run, Session.unfolded_run, h.folds])

/-- The panels take turns in two ways around a reset; only the keyboard is left elsewhere. -/
theorem run_independent_two_ways :
    let actions : List Action := [.write .first "6".toList, .write .entry "1+2".toList, .enter,
      .press .working, .press .reset, .write .second "0".toList, .choose .division,
      .press (.key (.digit 7)), .press .equals, .press .calculate]
    let others : List Action := [.write .entry "1+2".toList, .enter, .write .first "6".toList,
      .press .reset, .press (.key (.digit 7)), .write .second "0".toList, .choose .division,
      .press .calculate, .press .working, .press .equals]
    Session.SamePerPanel actions others ∧
      (Session.start.run actions).window.expression.result = "7.0".toList ∧
      (Session.start.run actions).window.focusEntry ≠ (Session.start.run others).window.focusEntry ∧
      (Session.start.run actions).act .look = (Session.start.run others).act .look := by
  intro actions others
  have h : Session.SamePerPanel actions others := ⟨by decide, by decide, by decide⟩
  refine ⟨h, by decide +kernel, by decide +kernel, ?_⟩
  exact (run_independent Session.start actions).2.2.2 others h

end Calculator

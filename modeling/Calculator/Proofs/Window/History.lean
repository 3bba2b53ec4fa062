import Calculator.Window.History
import Calculator.Window.Panels

/-!
# What is shown follows from the history

An action either computes, or clears, or leaves what a panel shows (`act_cases`, for each panel). So
after each action a panel shows what the actions so far tell (`Session.shows_expression_act`,
`Session.shows_operation_act`), and by `Session.recorded_run` it does after all of them.

* `run_outputs`: both panels show what their histories tell, and further actions that neither
  compute nor clear change none of it.
* `run_working_explains`: a working that is shown is that of the result beside it.
-/

namespace Calculator

/-! ## 1. Records -/

namespace Session

variable {α : Type} {counts clears : Action → Bool} {view : Session → α}

/-- The views after one more action: none of those before it where it clears, and its own where it
    counts. -/
def note (counts clears : Action → Bool) (view : Session → α) (s : Session) (views : List α)
    (a : Action) : List α :=
  (if clears a then [] else views) ++ if counts a then [view s] else []

/-- **What every action keeps holds of what is recorded.** -/
theorem recorded_run {P : Session → List α → Prop} {s : Session} {views : List α}
    (actions : List Action) (h : P s views)
    (hact : ∀ {s views} a, P s views → P (s.act a) (note counts clears view s views a)) :
    P (s.run actions)
      ((if actions.any clears then [] else views) ++ recorded counts clears view s actions) := by
  induction actions generalizing s views with
  | nil =>
      show P s (views ++ [])
      rw [List.append_nil]
      exact h
  | cons a actions ih =>
      have hviews : (if actions.any clears then [] else note counts clears view s views a) ++
            recorded counts clears view (s.act a) actions =
          (if (a :: actions).any clears then [] else views) ++
            recorded counts clears view s (a :: actions) := by
        unfold note
        rw [recorded, List.any_cons]
        cases clears a <;> cases counts a <;> cases actions.any clears <;> simp
      rw [← hviews]
      exact ih (hact a h)

theorem recorded_start {P : Session → List α → Prop} {s : Session} (actions : List Action)
    (h : P s [])
    (hact : ∀ {s views} a, P s views → P (s.act a) (note counts clears view s views a)) :
    P (s.run actions) (recorded counts clears view s actions) := by
  have hrun := recorded_run actions h hact
  rw [ite_self, List.nil_append] at hrun
  exact hrun

end Session

/-! ## 2. The panel for an expression -/

namespace ExpressionPanel

variable {p q : ExpressionPanel} {evaluated : List Text}

theorem Shows.congr (h : p.Shows evaluated) (hpq : q.outputs = p.outputs) : q.Shows evaluated := by
  obtain ⟨hresult, hrest⟩ := Prod.mk.inj hpq
  obtain ⟨herror, hworking⟩ := Prod.mk.inj hrest
  exact ⟨hresult.trans h.result, herror.trans h.error, hworking.trans h.working⟩

theorem shows_nil (h : p.outputs = empty.outputs) : p.Shows [] :=
  Shows.congr ⟨rfl, rfl, rfl⟩ h

/-- After an evaluation, its entry is the last one evaluated. -/
theorem Shows.evaluate (h : p.Shows evaluated) : p.evaluate.Shows (evaluated ++ [p.entry]) := by
  have hlast : (evaluated ++ [p.entry]).getLast? = some p.entry := List.getLast?_concat
  rw [evaluate_eq]
  cases hexplain : Expression.explain p.entry with
  | ok value =>
      obtain ⟨hresult, hworking, hcomplaint⟩ := Entry.told_of_explain_eq_ok hexplain
      refine ⟨?_, ?_, ?_⟩
      · rw [List.filterMap_append, List.filterMap_cons_some hresult, List.getLast?_append]
        rfl
      · rw [hlast, Option.bind_some, hcomplaint]
        rfl
      · rw [hlast, Option.bind_some, hworking]
        rfl
  | error e =>
      obtain ⟨hresult, hworking, hcomplaint⟩ := Entry.told_of_explain_eq_error hexplain
      refine ⟨?_, ?_, ?_⟩
      -- the last result stays, since the entry adds none
      · rw [List.filterMap_append, List.filterMap_cons_none hresult, List.filterMap_nil,
          List.append_nil]
        exact h.result
      · rw [hlast, Option.bind_some, hcomplaint]
        rfl
      · rw [hlast, Option.bind_some, hworking]
        rfl

/-- An action evaluates the entry, clears what is shown or leaves it. -/
theorem act_cases (p : ExpressionPanel) (a : Action) :
    (a.evaluates = true ∧ a.clearsResults = false ∧ p.act a = p.evaluate) ∨
      (a.evaluates = false ∧ a.clearsResults = true ∧ (p.act a).outputs = empty.outputs) ∨
      (a.evaluates = false ∧ a.clearsResults = false ∧ (p.act a).outputs = p.outputs) := by
  cases a with
  | write field text => cases field <;> exact .inr (.inr ⟨rfl, rfl, rfl⟩)
  | choose op => exact .inr (.inr ⟨rfl, rfl, rfl⟩)
  | press button =>
      cases button with
      | equals => exact .inl ⟨rfl, rfl, rfl⟩
      | clearResults => exact .inr (.inl ⟨rfl, rfl, rfl⟩)
      | reset => exact .inr (.inl ⟨rfl, rfl, rfl⟩)
      | key k => exact .inr (.inr ⟨rfl, rfl, rfl⟩)
      | clearEntry => exact .inr (.inr ⟨rfl, rfl, rfl⟩)
      | delete => exact .inr (.inr ⟨rfl, rfl, rfl⟩)
      | calculate => exact .inr (.inr ⟨rfl, rfl, rfl⟩)
      | working => exact .inr (.inr ⟨rfl, rfl, rfl⟩)
  | enter => exact .inl ⟨rfl, rfl, rfl⟩
  | escape => exact .inr (.inr ⟨rfl, rfl, rfl⟩)
  | look => exact .inr (.inr ⟨rfl, rfl, rfl⟩)

end ExpressionPanel

/-- **After each action the panel shows what is noted of it.** -/
theorem Session.shows_expression_act {s : Session} {evaluated : List Text} (a : Action)
    (h : s.window.expression.Shows evaluated) :
    (s.act a).window.expression.Shows (note Action.evaluates Action.clearsResults
      (fun s => s.window.expression.entry) s evaluated a) := by
  rw [expression_act, note]
  rcases s.window.expression.act_cases a with ⟨he, hc, hact⟩ | ⟨he, hc, hact⟩ | ⟨he, hc, hact⟩
  · rw [he, hc, hact]
    exact h.evaluate
  · rw [he, hc]
    exact ExpressionPanel.shows_nil hact
  · rw [he, hc]
    simpa using h.congr hact

/-- **The expression panel shows what the evaluations since it was last cleared tell.** -/
theorem Session.shows_expression_run (actions : List Action) :
    (start.run actions).window.expression.Shows (start.evaluated actions) :=
  recorded_start (P := fun s evaluated => s.window.expression.Shows evaluated)
    actions (ExpressionPanel.shows_nil rfl) fun a h => shows_expression_act a h

/-! ## 3. The panel for one operation -/

namespace OperationPanel

variable {p q : OperationPanel} {calculated : List OperationPanel}

theorem Shows.congr (h : p.Shows calculated) (hpq : q.outputs = p.outputs) :
    q.Shows calculated := by
  obtain ⟨hresult, herror⟩ := Prod.mk.inj hpq
  unfold Shows at h ⊢
  rw [hresult, herror]
  exact h

theorem shows_nil (h : p.outputs = empty.outputs) : p.Shows [] :=
  Shows.congr (p := empty) ⟨rfl, rfl⟩ h

/-- After a calculation, it is the last one. -/
theorem shows_calculate (p : OperationPanel) (calculated : List OperationPanel) :
    p.calculate.Shows (calculated ++ [p]) := by
  have hlast : (calculated ++ [p]).getLast? = some p := List.getLast?_concat
  unfold Shows calculate
  rw [hlast]
  cases houtcome : p.outcome with
  | ok text => simp only [houtcome, showResult, and_self]
  | error message => simp only [houtcome, showError, and_self]

/-- An action calculates the operation, clears what is shown or leaves it. -/
theorem act_cases (p : OperationPanel) (a : Action) :
    (a.calculates = true ∧ a.resets = false ∧ p.act a = p.calculate) ∨
      (a.calculates = false ∧ a.resets = true ∧ (p.act a).outputs = empty.outputs) ∨
      (a.calculates = false ∧ a.resets = false ∧ (p.act a).outputs = p.outputs) := by
  cases a with
  | write field text => cases field <;> exact .inr (.inr ⟨rfl, rfl, rfl⟩)
  | choose op => exact .inr (.inr ⟨rfl, rfl, rfl⟩)
  | press button =>
      cases button with
      | calculate => exact .inl ⟨rfl, rfl, rfl⟩
      | reset => exact .inr (.inl ⟨rfl, rfl, rfl⟩)
      | key k => exact .inr (.inr ⟨rfl, rfl, rfl⟩)
      | equals => exact .inr (.inr ⟨rfl, rfl, rfl⟩)
      | clearEntry => exact .inr (.inr ⟨rfl, rfl, rfl⟩)
      | clearResults => exact .inr (.inr ⟨rfl, rfl, rfl⟩)
      | delete => exact .inr (.inr ⟨rfl, rfl, rfl⟩)
      | working => exact .inr (.inr ⟨rfl, rfl, rfl⟩)
  | enter => exact .inr (.inr ⟨rfl, rfl, rfl⟩)
  | escape => exact .inr (.inr ⟨rfl, rfl, rfl⟩)
  | look => exact .inr (.inr ⟨rfl, rfl, rfl⟩)

/-- A result or an error is shown, not both. -/
theorem Shows.result_eq_nil_iff (h : p.Shows calculated) (hcalculated : calculated ≠ []) :
    p.result = [] ↔ p.error ≠ [] := by
  have hlast : calculated.getLast? = some (calculated.getLast hcalculated) :=
    List.getLast?_eq_some_getLast hcalculated
  unfold Shows at h
  rw [hlast] at h
  cases houtcome : (calculated.getLast hcalculated).outcome with
  | ok text =>
      have htext : text ≠ [] := text_ne_nil_of_outcome houtcome
      simp only [houtcome] at h
      simp [h, htext]
  | error message =>
      have hmessage : message ≠ [] := message_ne_nil_of_outcome houtcome
      simp only [houtcome] at h
      simp [h, hmessage]

end OperationPanel

/-- **After each action the panel shows what is noted of it.** -/
theorem Session.shows_operation_act {s : Session} {calculated : List OperationPanel} (a : Action)
    (h : s.window.operation.Shows calculated) :
    (s.act a).window.operation.Shows (note Action.calculates Action.resets
      (fun s => s.window.operation) s calculated a) := by
  rw [operation_act, note]
  rcases s.window.operation.act_cases a with ⟨hc, hr, hact⟩ | ⟨hc, hr, hact⟩ | ⟨hc, hr, hact⟩
  · rw [hc, hr, hact]
    exact OperationPanel.shows_calculate _ _
  · rw [hc, hr]
    exact OperationPanel.shows_nil hact
  · rw [hc, hr]
    simpa using h.congr hact

/-- **The operation panel shows the outcome of the last calculation since it was reset.** -/
theorem Session.shows_operation_run (actions : List Action) :
    (start.run actions).window.operation.Shows (start.calculated actions) :=
  recorded_start (P := fun s calculated => s.window.operation.Shows calculated)
    actions (OperationPanel.shows_nil rfl) fun a h => shows_operation_act a h

/-! ## 4. Both panels -/

/-- A working that is shown is that of the last entry evaluated, which has a value. -/
theorem ExpressionPanel.Shows.exists_explain {p : ExpressionPanel} {evaluated : List Text}
    (h : p.Shows evaluated) (hworking : p.working ≠ .empty) :
    p.error = [] ∧ ∃ t x, Expression.explain t = .ok (x, p.working) ∧ p.result = x.resultText := by
  have hlastWorking : evaluated.getLast?.bind Entry.working? = some p.working := by
    cases hbind : evaluated.getLast?.bind Entry.working? with
    | none =>
        rw [h.working, hbind] at hworking
        exact absurd rfl hworking
    | some working => rw [h.working, hbind, Option.getD_some]
  obtain ⟨t, hlast, ht⟩ := Option.bind_eq_some_iff.1 hlastWorking
  obtain ⟨before, rfl⟩ := List.getLast?_eq_some_iff.1 hlast
  obtain ⟨x, hexplain⟩ := Entry.exists_explain_of_working? ht
  obtain ⟨hresult, -, hcomplaint⟩ := Entry.told_of_explain_eq_ok hexplain
  refine ⟨?_, t, x, hexplain, ?_⟩
  · rw [h.error, hlast, Option.bind_some, hcomplaint, Option.getD_none]
  · rw [h.result, List.filterMap_append, List.filterMap_cons_some hresult, List.getLast?_append]
    rfl

/-- **A working that is shown is that of the result beside it.** After any actions, if the panel for
    an expression shows a working, it shows no error, and its result is the value of the expression
    in the working, explained by that working. -/
theorem run_working_explains {actions : List Action}
    (h : (Session.start.run actions).window.expression.working ≠ .empty) :
    let p := (Session.start.run actions).window.expression
    p.error = [] ∧
      ∃ x, Expression.explain p.working.cleaned = .ok (x, p.working) ∧ p.result = x.resultText := by
  intro p
  obtain ⟨herror, t, x, hexplain, hresult⟩ :=
    (Session.shows_expression_run actions).exists_explain h
  obtain ⟨tokens, elements, -, -, -, hworking⟩ := Expression.explain_eq_ok_iff.1 hexplain
  have hcleaned : p.working.cleaned = t.clean := congrArg Working.cleaned hworking
  have hclean : p.working.cleaned.clean = t.clean := by
    rw [hcleaned, Text.clean_clean]
  refine ⟨herror, x, ?_, hresult⟩
  rw [Expression.explain_congr hclean]
  exact hexplain

/-- The entry changes after its evaluation, and is cleared; the working stays that of the result. -/
theorem run_working_explains_cleared :
    let actions : List Action := [.write .entry " 2 * (3 + 4) ".toList, .press .equals,
      .press (.key .point), .press .clearEntry, .choose .division]
    let p := (Session.start.run actions).window.expression
    p.working ≠ .empty ∧ p.working.cleaned = "2*(3+4)".toList ∧ p.result = "14.0".toList ∧
      ∃ x, Expression.explain p.working.cleaned = .ok (x, p.working) ∧ p.result = x.resultText := by
  intro actions p
  have h : p.working ≠ .empty := by decide +kernel
  exact ⟨h, by decide +kernel, by decide +kernel, (run_working_explains h).2⟩

theorem Session.outputs_act (s : Session) {a : Action} (h : a.keepsOutputs = true) :
    (s.act a).window.outputs = s.window.outputs := by
  simp only [Action.keepsOutputs, Bool.not_eq_true', Bool.or_eq_false_iff] at h
  obtain ⟨⟨⟨hevaluates, hclears⟩, hcalculates⟩, hresets⟩ := h
  have hexpression : (s.act a).window.expression.outputs = s.window.expression.outputs := by
    rw [expression_act]
    rcases s.window.expression.act_cases a with ⟨he, -⟩ | ⟨-, hc, -⟩ | ⟨-, -, hact⟩
    · exact absurd (hevaluates.symm.trans he) Bool.false_ne_true
    · exact absurd (hclears.symm.trans hc) Bool.false_ne_true
    · exact hact
  have hoperation : (s.act a).window.operation.outputs = s.window.operation.outputs := by
    rw [operation_act]
    rcases s.window.operation.act_cases a with ⟨hc, -⟩ | ⟨-, hr, -⟩ | ⟨-, -, hact⟩
    · exact absurd (hcalculates.symm.trans hc) Bool.false_ne_true
    · exact absurd (hresets.symm.trans hr) Bool.false_ne_true
    · exact hact
  unfold Window.outputs
  rw [hexpression, hoperation]

/-- **Nothing that is shown changes while nothing is computed or cleared.** -/
theorem Session.outputs_run {s : Session} {actions : List Action}
    (h : ∀ a ∈ actions, a.keepsOutputs = true) :
    (s.run actions).window.outputs = s.window.outputs := by
  induction actions generalizing s with
  | nil => rfl
  | cons a actions ih =>
      have hrest : ((s.act a).run actions).window.outputs = (s.act a).window.outputs :=
        ih fun b hb => h b (List.mem_cons_of_mem a hb)
      exact hrest.trans (s.outputs_act (h a List.mem_cons_self))

/-- **The outputs of both panels are told by the history.** After any actions the panel for an
    expression shows what the entries evaluated since it was last cleared tell, and the panel for
    one operation the outcome of its last calculation since the window was last reset: a result or
    an error, if there was one. Further actions that neither compute nor clear change none of it. -/
theorem run_outputs (actions : List Action) :
    let s := Session.start.run actions
    let calculated := Session.start.calculated actions
    s.window.expression.Shows (Session.start.evaluated actions) ∧
      s.window.operation.Shows calculated ∧
      (calculated ≠ [] → (s.window.operation.result = [] ↔ s.window.operation.error ≠ [])) ∧
      ∀ later : List Action, (∀ a ∈ later, a.keepsOutputs = true) →
        (s.run later).window.outputs = s.window.outputs := by
  intro s calculated
  have hoperation : s.window.operation.Shows calculated := Session.shows_operation_run actions
  exact ⟨Session.shows_expression_run actions, hoperation, hoperation.result_eq_nil_iff,
    fun later => Session.outputs_run⟩

/-- A result outlives the failed evaluation after it, while a calculation takes the place of the one
    before; new operands and a cleared entry change neither. -/
theorem run_outputs_two_panels :
    let actions : List Action := [.write .entry "1+2".toList, .press .equals,
      .press .calculate, .write .entry "1/0".toList, .enter, .write .first "6".toList,
      .write .second "4".toList, .choose .division, .press .calculate]
    let later : List Action := [.write .second "0".toList, .press .clearEntry,
      .press (.key (.digit 7)), .press .delete, .escape, .press .working]
    let s := Session.start.run actions
    s.window.expression.result = "3.0".toList ∧
      s.window.expression.error = Error.divisionByZero.message ∧
      s.window.expression.working = .empty ∧
      (s.window.operation.result = "1.5".toList ∧ s.window.operation.error = []) ∧
      (s.run later).window.outputs = s.window.outputs := by
  intro actions later s
  obtain ⟨hexpression, -, hone, hlater⟩ := run_outputs actions
  have hcalculated : Session.start.calculated actions ≠ [] := by decide +kernel
  have hresult : s.window.operation.result = "1.5".toList := by decide +kernel
  have herror : s.window.operation.error = [] := by
    refine Decidable.of_not_not fun herror => ?_
    have hnil : s.window.operation.result = [] := (hone hcalculated).2 herror
    rw [hresult] at hnil
    exact nomatch hnil
  exact ⟨hexpression.result.trans (by decide +kernel), hexpression.error.trans (by decide +kernel),
    hexpression.working.trans (by decide +kernel), ⟨hresult, herror⟩, hlater later (by decide)⟩

end Calculator

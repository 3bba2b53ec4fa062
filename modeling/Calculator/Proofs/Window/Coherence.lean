import Calculator.Proofs.Window.History
import Calculator.Window.Calls

/-!
# What is shown fits together

Whoever uses a window, and in whatever order: the panel for one operation shows a result or an
error, not both, and the panel for an expression shows no working beside an error. Each change of a
panel keeps this (`OperationPanel.IsCoherent.act` and its companions), hence each call does
(`Window.IsCoherent.call`). Main statement: `exists_calls_iff_isCoherent`, the windows that calls
lead to are those in which what is shown fits together, and no others.
-/

namespace Calculator

/-! ## 1. The panel for one operation -/

namespace OperationPanel

variable {p q : OperationPanel}

theorem isCoherent_of_result_eq_nil (h : p.result = []) : p.IsCoherent :=
  fun hboth => hboth.1 h

theorem isCoherent_of_error_eq_nil (h : p.error = []) : p.IsCoherent :=
  fun hboth => hboth.2 h

theorem IsCoherent.congr (h : p.IsCoherent) (hpq : q.outputs = p.outputs) : q.IsCoherent := by
  obtain ⟨hresult, herror⟩ := Prod.mk.inj hpq
  unfold IsCoherent at h ⊢
  rw [hresult, herror]
  exact h

theorem isCoherent_calculate (p : OperationPanel) : p.calculate.IsCoherent := by
  unfold calculate
  cases p.outcome with
  | ok text => exact isCoherent_of_error_eq_nil rfl
  | error message => exact isCoherent_of_result_eq_nil rfl

/-- **What a person does keeps the panel coherent.** -/
theorem IsCoherent.act (h : p.IsCoherent) (a : Action) : (p.act a).IsCoherent := by
  rcases p.act_cases a with ⟨-, -, hact⟩ | ⟨-, -, hact⟩ | ⟨-, -, hact⟩
  · rw [hact]
    exact isCoherent_calculate p
  · exact (isCoherent_of_error_eq_nil (p := empty) rfl).congr hact
  · exact h.congr hact

end OperationPanel

/-! ## 2. The panel for an expression -/

namespace ExpressionPanel

variable {p q : ExpressionPanel}

theorem isCoherent_of_error_eq_nil (h : p.error = []) : p.IsCoherent :=
  fun herror => absurd h herror

theorem isCoherent_showError (p : ExpressionPanel) (message : Text) :
    (p.showError message).IsCoherent :=
  fun _ => ⟨rfl, rfl, rfl⟩

theorem IsCoherent.congr (h : p.IsCoherent) (hpq : q.outputs = p.outputs) : q.IsCoherent := by
  obtain ⟨-, hrest⟩ := Prod.mk.inj hpq
  obtain ⟨herror, hworking⟩ := Prod.mk.inj hrest
  unfold IsCoherent at h ⊢
  rw [herror, hworking]
  exact h

theorem isCoherent_evaluate (p : ExpressionPanel) : p.evaluate.IsCoherent := by
  unfold evaluate
  cases p.outcome with
  | ok shown => exact isCoherent_of_error_eq_nil rfl
  | error message => exact isCoherent_showError p message

/-- **What a person does keeps the panel coherent.** -/
theorem IsCoherent.act (h : p.IsCoherent) (a : Action) : (p.act a).IsCoherent := by
  rcases p.act_cases a with ⟨-, -, hact⟩ | ⟨-, -, hact⟩ | ⟨-, -, hact⟩
  · rw [hact]
    exact isCoherent_evaluate p
  · exact (isCoherent_of_error_eq_nil (p := empty) rfl).congr hact
  · exact h.congr hact

end ExpressionPanel

/-! ## 3. The window -/

namespace Window

variable {w : Window}

theorem isCoherent_start : start.IsCoherent :=
  ⟨OperationPanel.isCoherent_of_error_eq_nil rfl, ExpressionPanel.isCoherent_of_error_eq_nil rfl⟩

/-- Whatever a program shows in a panel, and with whatever text, the panel stays coherent. -/
theorem IsCoherent.update (h : w.IsCoherent) (change : Update) : (w.update change).IsCoherent := by
  cases change with
  | reset => exact isCoherent_start
  | clearEntry => exact ⟨h.operation, h.expression.congr rfl⟩
  | clearResults => exact ⟨h.operation, ExpressionPanel.isCoherent_of_error_eq_nil rfl⟩
  | showError message => exact ⟨h.operation, ExpressionPanel.isCoherent_showError _ message⟩
  | showResult text working => exact ⟨h.operation, ExpressionPanel.isCoherent_of_error_eq_nil rfl⟩
  | showOperationError message =>
      exact ⟨OperationPanel.isCoherent_of_result_eq_nil rfl, h.expression⟩
  | showOperationResult text =>
      exact ⟨OperationPanel.isCoherent_of_error_eq_nil rfl, h.expression⟩

theorem IsCoherent.write (h : w.IsCoherent) (text : Text) (field : Field) :
    (w.write text field).IsCoherent := by
  cases field with
  | first => exact ⟨h.operation.congr rfl, h.expression⟩
  | second => exact ⟨h.operation.congr rfl, h.expression⟩
  | entry => exact ⟨h.operation, h.expression.congr rfl⟩

/-- **Each call keeps the window coherent.** -/
theorem IsCoherent.call (h : w.IsCoherent) (c : Call) : (w.call c).IsCoherent := by
  cases c with
  | write field text => exact h.write text field
  | choose op => exact ⟨h.operation.congr rfl, h.expression⟩
  | update change => exact h.update change
  | calculate => exact ⟨OperationPanel.isCoherent_calculate _, h.expression⟩
  | evaluate => exact ⟨h.operation, ExpressionPanel.isCoherent_evaluate _⟩
  | act action =>
      have hoperation := Session.operation_act { window := w } action
      have hexpression := Session.expression_act { window := w } action
      refine ⟨?_, ?_⟩
      · show ((Session.act { window := w } action).window.operation).IsCoherent
        rw [hoperation]
        exact h.operation.act action
      · show ((Session.act { window := w } action).window.expression).IsCoherent
        rw [hexpression]
        exact h.expression.act action

/-- **Calls keep the window coherent**, however many and in whatever order. -/
theorem IsCoherent.calls (h : w.IsCoherent) (cs : List Call) : (w.calls cs).IsCoherent := by
  induction cs generalizing w with
  | nil => exact h
  | cons c cs ih => exact ih (h.call c)

/-! ## 4. Exactly these windows -/

theorem calls_append (w : Window) (cs cs' : List Call) :
    w.calls (cs ++ cs') = (w.calls cs).calls cs' :=
  List.foldl_append

/-- What a program calls to give the operation panel of a window its content. -/
def operationCalls (p : OperationPanel) : List Call :=
  [.write .first p.first, .choose p.operator, .write .second p.second,
    .update (if p.error.isEmpty then .showOperationResult p.result
      else .showOperationError p.error)]

/-- What a program calls to give the expression panel of a window its content: where there is an
    error, the result beside it has been shown before. -/
def expressionCalls (p : ExpressionPanel) : List Call :=
  [.write .entry p.entry, .update (.showResult p.result p.working)] ++
    if p.error.isEmpty then [] else [.update (.showError p.error)]

theorem calls_operationCalls (w : Window) {p : OperationPanel} (h : p.IsCoherent) :
    w.calls (operationCalls p) = { w with operation := p } := by
  obtain ⟨first, operator, second, result, error⟩ := p
  cases error with
  | nil => rfl
  | cons c error =>
      obtain rfl : result = [] :=
        Decidable.of_not_not fun hresult => h ⟨hresult, List.cons_ne_nil c error⟩
      rfl

theorem calls_expressionCalls (w : Window) {p : ExpressionPanel} (h : p.IsCoherent) :
    w.calls (expressionCalls p) = { w with expression := p, focusEntry := true } := by
  obtain ⟨entry, result, error, ⟨cleaned, tokens, elements⟩⟩ := p
  cases error with
  | nil => rfl
  | cons c error =>
      obtain ⟨hcleaned, htokens, helements⟩ := h (List.cons_ne_nil c error)
      obtain rfl : cleaned = [] := hcleaned
      obtain rfl : tokens = [] := htokens
      obtain rfl : elements = [] := helements
      rfl

/-- Each coherent window is what some calls make of a new one. -/
theorem IsCoherent.exists_calls (h : w.IsCoherent) : ∃ cs, start.calls cs = w := by
  have hpanels : start.calls (operationCalls w.operation ++ expressionCalls w.expression) =
      { w with focusEntry := true } := by
    rw [calls_append, calls_operationCalls _ h.operation, calls_expressionCalls _ h.expression]
  cases hfocus : w.focusEntry with
  | true =>
      refine ⟨_, hpanels.trans ?_⟩
      rw [← hfocus]
  | false =>
      -- only a drawing takes the keyboard from the entry
      refine ⟨operationCalls w.operation ++ expressionCalls w.expression ++ [.act .look], ?_⟩
      rw [calls_append, hpanels]
      show ({ w with focusEntry := true } : Window).draw = w
      unfold draw
      rw [← hfocus]

end Window

/-- **The windows that calls lead to are the coherent ones.** In whatever order a program writes the
    fields, has the window compute and updates it with whatever texts, and a person acts in between:
    the operation never shows a result and an error, and beside an error of the expression the three
    texts of the working are empty. Nothing else is promised, since each such window comes about. -/
theorem exists_calls_iff_isCoherent (w : Window) :
    (∃ cs, Window.start.calls cs = w) ↔ w.IsCoherent := by
  refine ⟨fun h => ?_, fun h => h.exists_calls⟩
  obtain ⟨cs, hcs⟩ := h
  rw [← hcs]
  exact Window.isCoherent_start.calls cs

end Calculator

import Calculator.Window.Session

/-!
# The panels in use

What an action does to a panel is decided by that panel alone. `ExpressionPanel.act` and
`OperationPanel.act` say it without the rest of the window; the panels of a session after some
actions are its panels after those actions (`expression_run`, `operation_run`). An action concerns
one panel, both (only AC does) or none, and leaves a panel that it does not concern as it is
(`act_of_not_concernsExpression`, `act_of_not_concernsOperation`).
-/

namespace Calculator

namespace Action

/-- The action is one of the panel for an expression, or resets the window. -/
def concernsExpression : Action → Bool
  | .write .entry _ => true
  | .press (.key _) => true
  | .press .delete => true
  | .press .equals => true
  | .enter => true
  | .press .clearEntry => true
  | .escape => true
  | .press .clearResults => true
  | .press .reset => true
  | _ => false

/-- The action is one of the panel for one operation, or resets the window. -/
def concernsOperation : Action → Bool
  | .write .first _ => true
  | .write .second _ => true
  | .choose _ => true
  | .press .calculate => true
  | .press .reset => true
  | _ => false

end Action

namespace ExpressionPanel

/-- The panel after an action. -/
def act (p : ExpressionPanel) : Action → ExpressionPanel
  | .write .entry text => { p with entry := text }
  | .press (.key k) => p.insert k
  | .press .delete => p.delete
  | .press .equals => p.evaluate
  | .enter => p.evaluate
  | .press .clearEntry => p.clearEntry
  | .escape => p.clearEntry
  | .press .clearResults => p.clearResults
  | .press .reset => .empty
  | _ => p

/-- The panel after actions. -/
def run (p : ExpressionPanel) (actions : List Action) : ExpressionPanel :=
  actions.foldl act p

theorem act_of_not_concernsExpression (p : ExpressionPanel) {a : Action}
    (h : a.concernsExpression = false) : p.act a = p := by
  cases a with
  | write field text =>
      cases field with
      | entry => exact nomatch h
      | first => rfl
      | second => rfl
  | choose op => rfl
  | press button =>
      cases button with
      | calculate => rfl
      | working => rfl
      | key k | equals | clearEntry | clearResults | reset | delete => exact nomatch h
  | look => rfl
  | enter | escape => exact nomatch h

end ExpressionPanel

namespace OperationPanel

/-- The panel after an action. -/
def act (p : OperationPanel) : Action → OperationPanel
  | .write .first text => { p with first := text }
  | .write .second text => { p with second := text }
  | .choose op => { p with operator := op }
  | .press .calculate => p.calculate
  | .press .reset => .empty
  | _ => p

/-- The panel after actions. -/
def run (p : OperationPanel) (actions : List Action) : OperationPanel :=
  actions.foldl act p

theorem act_of_not_concernsOperation (p : OperationPanel) {a : Action}
    (h : a.concernsOperation = false) : p.act a = p := by
  cases a with
  | write field text =>
      cases field with
      | entry => rfl
      | first | second => exact nomatch h
  | choose op => exact nomatch h
  | press button =>
      cases button with
      | calculate | reset => exact nomatch h
      | key k | equals | clearEntry | clearResults | delete | working => rfl
  | enter | escape | look => rfl

end OperationPanel

namespace Session

theorem expression_act (s : Session) (a : Action) :
    (s.act a).window.expression = s.window.expression.act a := by
  cases a with
  | write field text => cases field <;> rfl
  | choose op => rfl
  | press button => cases button <;> rfl
  | enter => rfl
  | escape => rfl
  | look => rfl

theorem operation_act (s : Session) (a : Action) :
    (s.act a).window.operation = s.window.operation.act a := by
  cases a with
  | write field text => cases field <;> rfl
  | choose op => rfl
  | press button => cases button <;> rfl
  | enter => rfl
  | escape => rfl
  | look => rfl

/-- **The expression panel of a session in use is that panel in use.** -/
theorem expression_run (s : Session) (actions : List Action) :
    (s.run actions).window.expression = s.window.expression.run actions := by
  induction actions generalizing s with
  | nil => rfl
  | cons a actions ih =>
      show ((s.act a).run actions).window.expression = (s.window.expression.act a).run actions
      rw [ih, expression_act]

/-- **The operation panel of a session in use is that panel in use.** -/
theorem operation_run (s : Session) (actions : List Action) :
    (s.run actions).window.operation = s.window.operation.run actions := by
  induction actions generalizing s with
  | nil => rfl
  | cons a actions ih =>
      show ((s.act a).run actions).window.operation = (s.window.operation.act a).run actions
      rw [ih, operation_act]

end Session

end Calculator

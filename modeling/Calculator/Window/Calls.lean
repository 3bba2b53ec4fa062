import Calculator.Window.Session

/-!
# Calls

A window can be used without being drawn: a program writes its fields, has it compute and updates
what it shows, with whatever texts it likes, and a person may act in between. `Window.calls` is the
window after such calls in any order. `Window.IsCoherent` says what they leave true of what the
window shows.
-/

namespace Calculator

/-- One use of a window, by a program or by a person. -/
inductive Call where
  | write (field : Field) (text : Text)
  | choose (op : Operator)
  | update (change : Update)
  | calculate
  | evaluate
  | act (action : Action)
  deriving DecidableEq

namespace Window

/-- The window after a call. -/
def call (w : Window) : Call → Window
  | .write field text => w.write text field
  | .choose op => w.choose op
  | .update change => w.update change
  | .calculate => w.calculate
  | .evaluate => w.evaluate
  | .act action => Session.actWindow w action

/-- The window after calls, the first of the list first. -/
def calls (w : Window) (cs : List Call) : Window :=
  cs.foldl call w

end Window

/-- A result and an error are not shown together. -/
def OperationPanel.IsCoherent (p : OperationPanel) : Prop :=
  ¬ (p.result ≠ [] ∧ p.error ≠ [])

/-- Beside an error the three texts of the working are empty. -/
def ExpressionPanel.IsCoherent (p : ExpressionPanel) : Prop :=
  p.error ≠ [] → p.working.cleaned = [] ∧ p.working.tokens = [] ∧ p.working.elements = []

/-- What both panels show fits together. -/
structure Window.IsCoherent (w : Window) : Prop where
  operation : w.operation.IsCoherent
  expression : w.expression.IsCoherent

end Calculator

import Calculator.Window.ExpressionPanel
import Calculator.Window.OperationPanel

/-!
# The window

The window holds both panels and whether the next drawing gives the keyboard to the entry. `Update`
names what a program may do to a window without drawing it; an update that shows or clears
something of the expression panel asks for the keyboard, one of the operation panel does not.
-/

namespace Calculator

/-- A field that is typed into. -/
inductive Field where
  | first
  | second
  | entry
  deriving DecidableEq

/-- The state of the window. -/
structure Window where
  operation : OperationPanel := .empty
  expression : ExpressionPanel := .empty
  /-- The next drawing gives the keyboard to the entry. -/
  focusEntry : Bool := true
  deriving DecidableEq

/-- What a program may do to a window without drawing it. -/
inductive Update where
  | reset
  | clearEntry
  | clearResults
  | showError (message : Text)
  | showResult (text : Text) (working : Working)
  | showOperationError (message : Text)
  | showOperationResult (text : Text)
  deriving DecidableEq

namespace Window

/-- The window at the start. -/
def start : Window where

/-- The window with a field's text written. -/
def write (w : Window) (text : Text) : Field → Window
  | .first => { w with operation := { w.operation with first := text } }
  | .second => { w with operation := { w.operation with second := text } }
  | .entry => { w with expression := { w.expression with entry := text } }

/-- The window with the operator of the operation panel chosen. -/
def choose (w : Window) (op : Operator) : Window :=
  { w with operation := { w.operation with operator := op } }

/-- The window after a change of the expression panel that asks for the keyboard. -/
def changeExpression (w : Window) (change : ExpressionPanel → ExpressionPanel) : Window :=
  { w with expression := change w.expression, focusEntry := true }

/-- The window after a change of the operation panel. -/
def changeOperation (w : Window) (change : OperationPanel → OperationPanel) : Window :=
  { w with operation := change w.operation }

/-- The window after an update. -/
def update (w : Window) : Update → Window
  | .reset => start
  | .clearEntry => w.changeExpression (·.clearEntry)
  | .clearResults => w.changeExpression (·.clearResults)
  | .showError message => w.changeExpression (·.showError message)
  | .showResult text working => w.changeExpression (·.showResult text working)
  | .showOperationError message => w.changeOperation (·.showError message)
  | .showOperationResult text => w.changeOperation (·.showResult text)

/-- The window after the entry is evaluated. -/
def evaluate (w : Window) : Window :=
  w.changeExpression (·.evaluate)

/-- The window after the operation is calculated. -/
def calculate (w : Window) : Window :=
  w.changeOperation (·.calculate)

/-- The window once drawn: the keyboard has been given. -/
def draw (w : Window) : Window :=
  { w with focusEntry := false }

end Window

end Calculator

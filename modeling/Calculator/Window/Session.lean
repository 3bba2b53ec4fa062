import Calculator.Window

/-!
# A session at the window

A session is the window and whether the working is unfolded, which no button but its own changes.
An `Action` is what a person does; each but typing draws the window, most of them before they act.
`Session.labels` are the texts that a drawing shows besides fields and buttons, from top to bottom.
-/

namespace Calculator

/-- A button of the window. -/
inductive Button where
  | key (k : Key)
  | equals
  | clearEntry
  | clearResults
  | reset
  | delete
  | calculate
  | working
  deriving DecidableEq

/-- What a person does at the window. -/
inductive Action where
  | write (field : Field) (text : Text)
  | choose (op : Operator)
  | press (button : Button)
  /-- The key Enter in the entry. -/
  | enter
  /-- The key Escape. -/
  | escape
  /-- The window is only looked at. -/
  | look
  deriving DecidableEq

namespace Button

/-- What a button is labelled with. -/
def label : Button → Text
  | .key k => [k.symbol]
  | .equals => "=".toList
  | .clearEntry => "C".toList
  | .clearResults => "CLR".toList
  | .reset => "AC".toList
  | .delete => "DEL".toList
  | .calculate => "Calculer".toList
  | .working => "Démarche".toList

/-- All buttons. -/
def all : List Button :=
  [.calculate, .clearEntry, .clearResults, .reset, .delete] ++ Key.all.map .key ++
    [.equals, .working]

/-- The button with a label. -/
def ofLabel? (t : Text) : Option Button :=
  all.find? fun button => button.label = t

end Button

/-- A window in use. -/
structure Session where
  window : Window := .start
  /-- The working is shown. -/
  unfolded : Bool := false
  deriving DecidableEq

namespace Session

/-- The session at the start. -/
def start : Session where

/-- The window after a button, given the window just drawn. -/
def pressWindow (w : Window) : Button → Window
  | .key k => w.changeExpression (·.insert k)
  | .equals => w.evaluate
  | .clearEntry => w.update .clearEntry
  | .clearResults => w.update .clearResults
  | .reset => w.update .reset
  | .delete => w.changeExpression (·.delete)
  | .calculate => w.calculate
  | .working => w

/-- The window after an action. -/
def actWindow (w : Window) : Action → Window
  | .write field text => w.write text field
  | .choose op => w.draw.choose op
  | .press button => pressWindow w.draw button
  | .enter => w.draw.evaluate
  | .escape => (w.update .clearEntry).draw
  | .look => w.draw

/-- The session after an action. -/
def act (s : Session) (action : Action) : Session where
  window := actWindow s.window action
  unfolded := if action = .press .working then !s.unfolded else s.unfolded

/-- The session after actions, the first of the list first. -/
def run (s : Session) (actions : List Action) : Session :=
  actions.foldl act s

/-- The session after the program updates the window. -/
def update (s : Session) (change : Update) : Session :=
  { s with window := s.window.update change }

/-- A label that is left out when empty. -/
def unlessEmpty (t : Text) : List Text :=
  if t.isEmpty then [] else [t]

/-- The labels of the working. -/
def workingLabels (working : Working) : List Text :=
  ["Entrée nettoyée :".toList, working.cleaned, "Jetons :".toList, working.tokens,
    "RPN :".toList, working.elements]

/-- The labels that a drawing shows, from top to bottom; one is the empty place of the keypad. -/
def labels (s : Session) : List Text :=
  let operation := s.window.operation
  let expression := s.window.expression
  ["Calculatrice infixe".toList, "Opération binaire :".toList, "Premier nombre".toList,
      "Opérateur".toList, "Second nombre".toList] ++
    unlessEmpty operation.result ++ unlessEmpty operation.error ++
    ["Expression :".toList, []] ++ unlessEmpty expression.error ++
    ["Résultat :".toList, if expression.result.isEmpty then "—".toList else expression.result] ++
    (if s.unfolded then workingLabels expression.working else [])

end Session

end Calculator

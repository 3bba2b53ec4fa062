import Calculator.Expression
import Calculator.Window.Keypad

/-!
# The panel for an expression

The panel has an entry, the last result, an error and the working of the result. An error leaves
the last result in view and takes away the working, which no longer explains what is entered; a
result takes away the error. An entry of blanks alone is told apart from an expression that is at
fault.
-/

namespace Calculator

/-- The panel for an expression. -/
structure ExpressionPanel where
  entry : Text := []
  result : Text := []
  error : Text := []
  working : Working := .empty
  deriving DecidableEq

namespace ExpressionPanel

/-- The panel before anything is entered. -/
def empty : ExpressionPanel where

/-- A result with its working takes the place of what was shown. -/
def showResult (p : ExpressionPanel) (text : Text) (working : Working) : ExpressionPanel :=
  { p with result := text, error := [], working := working }

/-- An error is shown beside the last result. -/
def showError (p : ExpressionPanel) (message : Text) : ExpressionPanel :=
  { p with error := message, working := .empty }

/-- Nothing is entered. -/
def clearEntry (p : ExpressionPanel) : ExpressionPanel :=
  { p with entry := [] }

/-- Nothing is shown for the entry. -/
def clearResults (p : ExpressionPanel) : ExpressionPanel :=
  { p with result := [], error := [], working := .empty }

/-- The result text of the entry with its working, or what is said of the entry. -/
def outcome (p : ExpressionPanel) : Except Text (Text × Working) :=
  if p.entry.trim.isEmpty then .error "Entrée vide".toList
  else
    match Expression.explain p.entry with
    | .ok (x, working) => .ok (x.resultText, working)
    | .error e => .error e.message

/-- The panel with the outcome of its entry. -/
def evaluate (p : ExpressionPanel) : ExpressionPanel :=
  match p.outcome with
  | .ok (text, working) => p.showResult text working
  | .error message => p.showError message

/-- The panel after an evaluation, by the value of its entry alone: that the code looks for blanks
    first only changes what is said. -/
theorem evaluate_eq (p : ExpressionPanel) :
    p.evaluate = match Expression.explain p.entry with
      | .ok (x, working) => p.showResult x.resultText working
      | .error e => p.showError (if p.entry.clean.isEmpty then "Entrée vide".toList else e.message)
    := by
  have htrim : p.entry.trim.isEmpty = p.entry.clean.isEmpty := by
    rw [Bool.eq_iff_iff, List.isEmpty_iff, List.isEmpty_iff, Text.trim_eq_nil_iff]
  unfold evaluate outcome
  rw [htrim]
  cases hclean : p.entry.clean.isEmpty with
  | true =>
      rw [Expression.explain_of_clean_eq_nil (List.isEmpty_iff.1 hclean)]
      rfl
  | false => cases Expression.explain p.entry <;> rfl

/-- The entry after a key. -/
def insert (p : ExpressionPanel) (key : Key) : ExpressionPanel :=
  { p with entry := Entry.insert p.entry key }

/-- The entry without its last symbol. -/
def delete (p : ExpressionPanel) : ExpressionPanel :=
  { p with entry := Entry.delete p.entry }

end ExpressionPanel

end Calculator

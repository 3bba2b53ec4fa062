import Calculator.Number.Decimal
import Calculator.Operator

/-!
# The panel for one operation

The panel has two operand fields, an operator and an outcome: a result or an error, never both
(`showResult` and `showError` each clear the other). An operand is a finite number, blanks at its
ends aside; of two that are none the first is reported.
-/

namespace Calculator

/-- The panel for one operation on two numbers. -/
structure OperationPanel where
  first : Text := []
  operator : Operator := .addition
  second : Text := []
  result : Text := []
  error : Text := []
  deriving DecidableEq

namespace OperationPanel

/-- The panel before anything is entered. -/
def empty : OperationPanel where

/-- A result takes the place of the outcome before. -/
def showResult (p : OperationPanel) (text : Text) : OperationPanel :=
  { p with result := text, error := [] }

/-- An error takes the place of the outcome before. -/
def showError (p : OperationPanel) (message : Text) : OperationPanel :=
  { p with result := [], error := message }

/-- The finite number in a field, or what is said of the field. -/
def readOperand (name text : Text) : Except Text Double :=
  let trimmed := text.trim
  match Number.ofText? trimmed with
  | some x => if x.isFinite then .ok x else .error (refusal trimmed)
  | none => .error (refusal trimmed)
where
  /-- What is said of a field that holds no finite number. -/
  refusal (trimmed : Text) : Text :=
    name ++ " invalide: '".toList ++ trimmed ++ "'".toList

/-- The text of the operation's value, or why there is none. -/
def outcome (p : OperationPanel) : Except Text Text := do
  let x ← readOperand "premier nombre".toList p.first
  let y ← readOperand "second nombre".toList p.second
  match Operator.calculate x p.operator y with
  | .ok z => .ok z.resultText
  | .error e => .error e.message

/-- What is said of a field is never empty. -/
theorem readOperand_ne_error_nil {name text : Text} : readOperand name text ≠ .error [] := by
  have hrefusal : ∀ t, readOperand.refusal name t ≠ [] := fun t =>
    List.append_ne_nil_of_right_ne_nil _ (List.cons_ne_nil _ _)
  dsimp only [readOperand]
  split
  · split <;> simp [hrefusal]
  · simp [hrefusal]

theorem text_ne_nil_of_outcome {p : OperationPanel} {text : Text} (h : p.outcome = .ok text) :
    text ≠ [] := by
  obtain ⟨x, -, h⟩ := bind_eq_ok_iff.1 h
  obtain ⟨y, -, h⟩ := bind_eq_ok_iff.1 h
  cases hz : Operator.calculate x p.operator y with
  | error e => rw [hz] at h; exact nomatch h
  | ok z =>
      rw [hz] at h
      rw [← Except.ok.inj h]
      exact Number.resultText_ne_nil z

theorem message_ne_nil_of_outcome {p : OperationPanel} {message : Text}
    (h : p.outcome = .error message) : message ≠ [] := by
  rintro rfl
  obtain h | ⟨x, -, h⟩ := bind_eq_error_iff.1 h
  · exact readOperand_ne_error_nil h
  obtain h | ⟨y, -, h⟩ := bind_eq_error_iff.1 h
  · exact readOperand_ne_error_nil h
  cases hz : Operator.calculate x p.operator y with
  | error e =>
      rw [hz] at h
      exact e.message_ne_nil (Except.error.inj h)
  | ok z => rw [hz] at h; exact nomatch h

/-- The panel with the outcome of its operation. -/
def calculate (p : OperationPanel) : OperationPanel :=
  match p.outcome with
  | .ok text => p.showResult text
  | .error message => p.showError message

end OperationPanel

end Calculator

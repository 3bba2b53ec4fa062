import Calculator.Decimal.Digits

/-!
# Why there is no answer

`Error` has one constructor for each cause; `Error.message` is its wording. A message is never
empty (`message_ne_nil`), so a message that is shown can be told from no message. An outcome is an
answer or an `Error`.
-/

namespace Calculator

/-! ## 1. Causes and their wording -/

/-- A cause for which a text, an operation or an operator's name has no answer. -/
inductive Error where
  /-- The characters of an expression that no token is made of, in increasing order. -/
  | unsupportedCharacters (characters : List Char)
  | unmatchedLeft
  | unmatchedRight
  | divisionByZero
  /-- An operator lacks an operand, an operand lacks an operator, or a text is no number. -/
  | invalidExpression
  | invalidOperator (text : Text)
  /-- At the position a token would have to start with a run of points. -/
  | malformedNumber (position : Nat) (fragment : Text)
  deriving DecidableEq

namespace Error

/-- The characters, each in quotes, with a comma and a space between them. -/
def quotedList : List Char → Text
  | [] => []
  | [c] => "'".toList ++ [c] ++ "'".toList
  | c :: cs => "'".toList ++ [c] ++ "', ".toList ++ quotedList cs

/-- What is shown for an error. -/
def message : Error → Text
  | .unsupportedCharacters characters =>
      "caractères non supportés: ".toList ++ quotedList characters
  | .unmatchedLeft => "parenthèse gauche non appariée".toList
  | .unmatchedRight => "parenthèse droite non appariée".toList
  | .divisionByZero => "division par zéro".toList
  | .invalidExpression => "expression invalide".toList
  | .invalidOperator text => "opérateur invalide: '".toList ++ text ++ "'".toList
  | .malformedNumber position fragment =>
      "nombre mal formé en position ".toList ++ digits position ++ ": '".toList ++ fragment ++
        "'".toList

/-- Each error shows something. -/
theorem message_ne_nil (e : Error) : e.message ≠ [] := by
  cases e <;> exact List.cons_ne_nil _ _

end Error

/-! ## 2. Outcomes -/

section

variable {ε α β : Type} {r : Except ε α}

theorem map_eq_ok_iff {f : α → β} {b : β} : r.map f = .ok b ↔ ∃ a, r = .ok a ∧ f a = b := by
  cases r <;> simp [Except.map]

theorem map_eq_error_iff {f : α → β} {e : ε} : r.map f = .error e ↔ r = .error e := by
  cases r <;> simp [Except.map]

theorem bind_eq_ok_iff {f : α → Except ε β} {b : β} :
    r.bind f = .ok b ↔ ∃ a, r = .ok a ∧ f a = .ok b := by
  cases r <;> simp [Except.bind]

theorem bind_eq_error_iff {f : α → Except ε β} {e : ε} :
    r.bind f = .error e ↔ r = .error e ∨ ∃ a, r = .ok a ∧ f a = .error e := by
  cases r <;> simp [Except.bind]

end

end Calculator

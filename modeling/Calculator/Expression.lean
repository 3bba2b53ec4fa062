import Calculator.Postfix.Conversion
import Calculator.Token.Scan

/-!
# Expressions

The value of a text is that of the postfix form of its tokens; the first stage at fault says why
there is none. `solve` answers with the value, `explain` also with the working that led to it. Main
statement: `explain_value`, both give the same value or the same error on every text.
-/

namespace Calculator

/-- The texts that explain a value. -/
structure Working where
  /-- The expression without its blanks. -/
  cleaned : Text := []
  /-- The tokens. -/
  tokens : Text := []
  /-- The postfix form. -/
  elements : Text := []
  deriving DecidableEq

/-- The working of nothing. -/
def Working.empty : Working where

namespace Expression

/-- The value of a text. -/
def solve (t : Text) : Except Error Double := do
  let tokens ← Token.ofText t
  let elements ← Postfix.ofTokens tokens
  elements.value

/-- The value of a text with its working. -/
def explain (t : Text) : Except Error (Double × Working) := do
  let tokens ← Token.ofText t
  let elements ← Postfix.ofTokens tokens
  let value ← elements.value
  return (value, ⟨t.clean, Token.listing tokens, elements.listing⟩)

/-- Blanks change nothing in a value and its working. -/
theorem explain_congr {t t' : Text} (h : t.clean = t'.clean) : explain t = explain t' := by
  unfold explain
  rw [Token.ofText_congr h, h]

/-- A text of blanks alone has no value. -/
theorem explain_of_clean_eq_nil {t : Text} (h : t.clean = []) :
    explain t = .error .invalidExpression := by
  have htokens : Token.ofText [] = .ok [] := by
    simp [Token.ofText, Text.clean, Token.unsupported, Text.distinct, Token.scan]
  have hnil : t.clean = Text.clean [] := h
  rw [explain_congr hnil, explain, htokens]
  rfl

/-- A text has a value if each of the three stages answers. -/
theorem solve_eq_ok_iff {t : Text} {x : Double} :
    solve t = .ok x ↔ ∃ tokens elements, Token.ofText t = .ok tokens ∧
      Postfix.ofTokens tokens = .ok elements ∧ elements.value = .ok x := by
  unfold solve
  constructor
  · intro h
    obtain ⟨tokens, ht, h⟩ := bind_eq_ok_iff.1 h
    obtain ⟨elements, he, hx⟩ := bind_eq_ok_iff.1 h
    exact ⟨tokens, elements, ht, he, hx⟩
  · rintro ⟨tokens, elements, ht, he, hx⟩
    exact bind_eq_ok_iff.2 ⟨tokens, ht, bind_eq_ok_iff.2 ⟨elements, he, hx⟩⟩

/-- A value is explained by the three forms of the text that led to it. -/
theorem explain_eq_ok_iff {t : Text} {x : Double} {working : Working} :
    explain t = .ok (x, working) ↔ ∃ tokens elements, Token.ofText t = .ok tokens ∧
      Postfix.ofTokens tokens = .ok elements ∧ elements.value = .ok x ∧
      working = ⟨t.clean, Token.listing tokens, elements.listing⟩ := by
  unfold explain
  constructor
  · intro h
    obtain ⟨tokens, ht, h⟩ := bind_eq_ok_iff.1 h
    obtain ⟨elements, he, h⟩ := bind_eq_ok_iff.1 h
    obtain ⟨y, hy, h⟩ := bind_eq_ok_iff.1 h
    obtain ⟨rfl, rfl⟩ := Prod.mk.inj (Except.ok.inj h)
    exact ⟨tokens, elements, ht, he, hy, rfl⟩
  · rintro ⟨tokens, elements, ht, he, hx, rfl⟩
    exact bind_eq_ok_iff.2 ⟨tokens, ht, bind_eq_ok_iff.2 ⟨elements, he,
      bind_eq_ok_iff.2 ⟨x, hx, rfl⟩⟩⟩

theorem solve_of_ofText {t : Text} {tokens : List Token} (h : Token.ofText t = .ok tokens) :
    solve t = (Postfix.ofTokens tokens).bind Postfix.value := by
  unfold solve
  rw [h]
  rfl

theorem solve_of_ofText_eq_error {t : Text} {e : Error} (h : Token.ofText t = .error e) :
    solve t = .error e := by
  unfold solve
  rw [h]
  rfl

theorem eq_ok_of_toOption {α : Type} {r : Except Error α} {a : α} (h : r.toOption = some a) :
    r = .ok a := by
  cases r with
  | error e => exact nomatch h
  | ok b => exact congrArg Except.ok (Option.some.inj h)

/-- **The explained value is the value.** -/
theorem explain_value (t : Text) : (explain t).map Prod.fst = solve t := by
  unfold explain solve
  cases Token.ofText t with
  | error e => rfl
  | ok tokens =>
      cases h : Postfix.ofTokens tokens with
      | error e => simp [bind, Except.bind, h, Except.map]
      | ok elements =>
          cases h' : elements.value <;>
            simp [bind, Except.bind, h, h', Except.map, pure, Except.pure]

end Expression

end Calculator

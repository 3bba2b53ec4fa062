import Calculator.Proofs.Window.Entry
import Calculator.Window.History
import Calculator.Window.Panels

/-!
# The keypad writes a stack of symbols

Where nothing is typed into the entry, it holds the symbols of a stack and spaces between them
(`Entry.Holds`): each action does to the stack what it does to the symbols of the entry
(`holds_act`), hence so do all actions of a session (`holds_run`). What an evaluation shows depends
on the symbols alone (`evaluate_congr`, `evaluate_of_clean`). Main statement: `run_keypad_entry`,
the entry reads as the symbols that were entered, and `=` shows their value with its working, or
their error.
-/

namespace Calculator

/-! ## 1. Entry and stack -/

/-- The entry is written by the keypad, and its symbols are those of the stack. -/
structure Entry.Holds (t : Text) (stack : SymbolStack) : Prop where
  typed : Entry.IsTyped t
  clean : t.clean = stack.text

namespace Entry

open SymbolStack (text)

theorem holds_nil : Holds [] [] :=
  ⟨isTyped_nil, rfl⟩

theorem Holds.insert {t : Text} {stack : SymbolStack} (h : Holds t stack) (k : Key) :
    Holds (insert t k) (k.symbol :: stack) where
  typed := h.typed.insert k
  clean := by
    rw [clean_insert, h.clean, text, text, List.reverse_cons]

theorem Holds.delete {t : Text} {stack : SymbolStack} (h : Holds t stack) :
    Holds (delete t) stack.tail where
  typed := h.typed.delete
  clean := by
    rw [h.typed.clean_delete, h.clean, text, text, List.dropLast_reverse]

end Entry

/-- **Each action does to the stack what it does to the symbols of the entry.** -/
theorem ExpressionPanel.holds_act {p : ExpressionPanel} {stack : SymbolStack} {a : Action}
    (h : Entry.Holds p.entry stack) (ha : a.TypesNothing) :
    Entry.Holds (p.act a).entry (stack.act a) := by
  have hevaluate : p.evaluate.entry = p.entry := by
    unfold evaluate
    split <;> rfl
  cases a with
  | write field text =>
      cases field with
      | first => exact h
      | second => exact h
      | entry => exact absurd rfl (ha text)
  | choose op => exact h
  | press button =>
      cases button with
      | key k => exact h.insert k
      | equals =>
          show Entry.Holds p.evaluate.entry stack
          rw [hevaluate]
          exact h
      | clearEntry => exact Entry.holds_nil
      | clearResults => exact h
      | reset => exact Entry.holds_nil
      | delete => exact h.delete
      | calculate => exact h
      | working => exact h
  | enter =>
      show Entry.Holds p.evaluate.entry stack
      rw [hevaluate]
      exact h
  | escape => exact Entry.holds_nil
  | look => exact h

theorem ExpressionPanel.holds_run {p : ExpressionPanel} {stack : SymbolStack}
    {actions : List Action} (h : Entry.Holds p.entry stack)
    (hactions : ∀ a ∈ actions, a.TypesNothing) :
    Entry.Holds (p.run actions).entry (stack.run actions) := by
  induction actions generalizing p stack with
  | nil => exact h
  | cons a actions ih =>
      exact ih (holds_act h (hactions a (by simp))) fun b hb => hactions b (by simp [hb])

/-! ## 2. What is evaluated -/

/-- Another text with the same symbols would have been evaluated to the same. -/
theorem ExpressionPanel.evaluate_congr {p : ExpressionPanel} {t : Text}
    (h : p.entry.clean = t.clean) :
    p.evaluate = { ({ p with entry := t } : ExpressionPanel).evaluate with entry := p.entry } := by
  have hexplain : Expression.explain p.entry = Expression.explain t := Expression.explain_congr h
  rw [evaluate_eq, evaluate_eq, hexplain, h]
  cases Expression.explain t <;> rfl

/-- What an evaluation shows, by the value of the symbols alone. -/
theorem ExpressionPanel.evaluate_of_clean {p : ExpressionPanel} {symbols : Text}
    (h : p.entry.clean = symbols) :
    (∀ x working, Expression.explain symbols = .ok (x, working) →
      p.evaluate = p.showResult x.resultText working) ∧
    ∀ e, Expression.explain symbols = .error e →
      p.evaluate = p.showError (if symbols.isEmpty then "Entrée vide".toList else e.message) := by
  have hexplain : Expression.explain p.entry = Expression.explain symbols :=
    Expression.explain_congr (by rw [← h, Text.clean_clean])
  rw [evaluate_eq, hexplain, h]
  refine ⟨fun x working hok => ?_, fun e herror => ?_⟩
  · rw [hok]
  · rw [herror]

/-- **The keypad is a stack of symbols.** Where nothing is typed into the entry, after any actions
    it is the symbols on the stack and blanks, no blank stands at its start and no two side by side;
    and `=` shows what it would show for the symbols alone. That is their value with its working in
    the place of all that was shown, or else their error beside the last result; where there is no
    symbol, it says that nothing is entered. -/
theorem run_keypad_entry {actions : List Action}
    (h : ∀ a ∈ actions, a.TypesNothing) :
    let p := (Session.start.run actions).window.expression
    let symbols := (SymbolStack.run [] actions).text
    let shown := ((Session.start.run actions).act (.press .equals)).window.expression
    p.entry.clean = symbols ∧
      (∀ c ∈ p.entry.head?, isBlank c = false) ∧
      (∀ pre c d post, p.entry = pre ++ c :: d :: post →
        ¬ (isBlank c = true ∧ isBlank d = true)) ∧
      shown = { ({ p with entry := symbols } : ExpressionPanel).evaluate with entry := p.entry } ∧
      (∀ x working, Expression.explain symbols = .ok (x, working) →
        shown = ⟨p.entry, x.resultText, [], working⟩) ∧
      ∀ e, Expression.explain symbols = .error e →
        shown = ⟨p.entry, p.result,
          if symbols.isEmpty then "Entrée vide".toList else e.message, .empty⟩ := by
  intro p symbols shown
  have hp : p = ExpressionPanel.empty.run actions := Session.expression_run _ actions
  have hholds : Entry.Holds p.entry (SymbolStack.run [] actions) := by
    rw [hp]
    exact ExpressionPanel.holds_run Entry.holds_nil h
  have hclean : p.entry.clean = symbols := hholds.clean
  have hshown : shown = p.evaluate := Session.expression_act _ _
  obtain ⟨hok, herror⟩ := ExpressionPanel.evaluate_of_clean hclean
  refine ⟨hclean, hholds.typed.tidy.head?, fun pre c d post => hholds.typed.tidy.apart,
    hshown.trans (ExpressionPanel.evaluate_congr ?_),
    fun x working hx => hshown.trans (hok x working hx), fun e he => hshown.trans (herror e he)⟩
  rw [← hclean, Text.clean_clean]

/-- Spaces around an operator, a bracket after an operand, a digit taken back, and an evaluation and
    a field of the other panel in between: `=` shows the value of the symbols and their working, in
    the place of the error of the evaluation before. -/
theorem run_keypad_entry_brackets :
    let actions : List Action := [.press (.key (.digit 2)),
      .press (.key (.operator .multiplication)), .press (.key .leftBracket),
      .press (.key (.digit 3)), .write .first "7".toList, .press (.key (.operator .subtraction)),
      .press (.key (.digit 1)), .enter, .press .delete, .press (.key (.digit 4)),
      .press (.key .rightBracket)]
    let p := (Session.start.run actions).window.expression
    let shown := ((Session.start.run actions).act (.press .equals)).window.expression
    (∀ a ∈ actions, a.TypesNothing) ∧
      p = ⟨"2 * (3 -4)".toList, [], Error.unmatchedLeft.message, .empty⟩ ∧
      p.entry.clean = "2*(3-4)".toList ∧
      (∀ c ∈ p.entry.head?, isBlank c = false) ∧
      (∀ pre c d post, p.entry = pre ++ c :: d :: post →
        ¬ (isBlank c = true ∧ isBlank d = true)) ∧
      shown = ⟨p.entry, "-2.0".toList, [],
        ⟨"2*(3-4)".toList, "2 * ( 3 - 4 )".toList, "2 3 4 - *".toList⟩⟩ := by
  intro actions p shown
  have h : ∀ a ∈ actions, a.TypesNothing := by
    intro a ha text
    simp only [actions, List.mem_cons, List.not_mem_nil, or_false] at ha
    rcases ha with rfl | rfl | rfl | rfl | rfl | rfl | rfl | rfl | rfl | rfl | rfl <;> simp
  obtain ⟨hclean, hhead, happart, -, hok, -⟩ := run_keypad_entry h
  have hsymbols : (SymbolStack.run [] actions).text = "2*(3-4)".toList := by decide
  have hvalue : Expression.explain "2*(3-4)".toList = .ok (.nearest (-2),
      ⟨"2*(3-4)".toList, "2 * ( 3 - 4 )".toList, "2 3 4 - *".toList⟩) :=
    Expression.eq_ok_of_toOption (by decide +kernel)
  have htext : (Number.nearest (-2) : Double).resultText = "-2.0".toList := by decide +kernel
  refine ⟨h, by decide +kernel, hclean.trans hsymbols, hhead, happart, ?_⟩
  rw [← htext]
  exact hok _ _ (hsymbols ▸ hvalue)

end Calculator

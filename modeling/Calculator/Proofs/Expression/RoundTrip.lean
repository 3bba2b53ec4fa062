import Calculator.Expression
import Calculator.Proofs.Expression.Written

/-!
# Writing a tree and solving the text

However a tree is written, with more brackets than it needs and with blanks anywhere, the text has
the tree's post-order as its postfix form and the tree's value as its value (`solve_of_writes`). A
division by a zero is the only thing that can go wrong with a tree (`Tree.value_eq_error`). Every
tree has a text (`exists_writes`).
-/

namespace Calculator

/-! ## 1. Every tree has a text -/

theorem isBlank_of_isSupported {c : Char} (h : Token.isSupported c = true) : isBlank c = false := by
  have hall : Token.alphabet.all (fun c => !isBlank c) = true := by decide
  simpa using List.all_eq_true.1 hall c (Token.isSupported_iff.1 h)

/-- There is no blank in a lexeme. -/
theorem clean_flatMap_text {ts : List Token} (h : ∀ tok ∈ ts, tok.IsLexeme) :
    Text.clean (ts.flatMap Token.text) = ts.flatMap Token.text := by
  refine List.filter_eq_self.2 fun c hc => ?_
  obtain ⟨tok, htok, hc⟩ := List.mem_flatMap.1 hc
  rw [isBlank_of_isSupported ((h tok htok).isSupported c hc)]
  rfl

theorem exists_writes (e : Tree Literal) : ∃ t, Writes t e :=
  ⟨_, e.render 0, written_render 0 e, clean_flatMap_text (written_render 0 e).isLexeme⟩

/-! ## 2. The value of a text -/

theorem Tree.value_eq_error {e : Tree Double} {err : Error} (h : e.value = .error err) :
    err = .divisionByZero := by
  induction e with
  | leaf x => simp [value] at h
  | node op l r ihl ihr =>
      rw [value] at h
      cases hl : l.value with
      | error errl =>
          rw [hl] at h
          obtain rfl : errl = err := Except.error.inj h
          exact ihl hl
      | ok x =>
          cases hr : r.value with
          | error errr =>
              rw [hl, hr] at h
              obtain rfl : errr = err := Except.error.inj h
              exact ihr hr
          | ok y =>
              rw [hl, hr] at h
              exact Operator.apply_eq_error h

namespace Expression

/-- **The value of a text is that of the tree that it writes.** -/
theorem solve_of_written {t : Text} {e : Tree Literal} {ts : List Token} (h : Written 0 e ts)
    (ht : t.clean = ts.flatMap Token.text) : solve t = (e.map Literal.value).value := by
  rw [solve_of_ofText (ofText_of_written h ht), ofTokens_written h]
  exact Tree.value_postOrder _

/-- **A text that writes a tree has the tree's post-order as its postfix form and the tree's value
    as its value**; if it has none, the tree runs into a division by zero. -/
theorem solve_of_writes {t : Text} {e : Tree Literal} (h : Writes t e) :
    (Token.ofText t).bind Postfix.ofTokens = .ok (e.map Literal.value).postOrder ∧
      solve t = (e.map Literal.value).value ∧
      ∀ err, (e.map Literal.value).value = .error err → err = .divisionByZero := by
  obtain ⟨ts, hw, ht⟩ := h
  have htext := ofText_of_written hw ht
  have hpost := ofTokens_written hw
  refine ⟨?_, ?_, fun err herr => Tree.value_eq_error herr⟩
  · rw [htext]
    exact hpost
  · rw [solve_of_ofText htext, hpost]
    exact Tree.value_postOrder _

/-- A negative literal behind an operator, brackets that are needed and brackets that are not. -/
theorem solve_of_writes_brackets :
    ∃ e, Writes " 8-( (3)* -2 )".toList e ∧
      (Token.ofText " 8-( (3)* -2 )".toList).bind Postfix.ofTokens =
        .ok (e.map Literal.value).postOrder ∧
      solve " 8-( (3)* -2 )".toList = (e.map Literal.value).value ∧
      ∀ err, (e.map Literal.value).value = .error err → err = .divisionByZero := by
  have h : Writes " 8-( (3)* -2 )".toList
      (.node .subtraction (.leaf ⟨false, ['8'], .inl (by decide)⟩)
        (.node .multiplication (.leaf ⟨false, ['3'], .inl (by decide)⟩)
          (.leaf ⟨true, ['2'], .inl (by decide)⟩))) :=
    ⟨_, .operation (by decide) (.literal _ _)
      (.brackets (.operation (by decide) (.brackets (.literal _ _)) (.literal _ _))), by decide⟩
  exact ⟨_, h, solve_of_writes h⟩

end Expression

end Calculator

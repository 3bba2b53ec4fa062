import Calculator.Proofs.Console.Operands
import Calculator.Proofs.Console.Outcome
import Calculator.Proofs.Expression.RoundTrip
import Calculator.Proofs.Window.History

/-!
# Console and window agree

The console answers with the value of a text, the window with the value explained, and it looks for
blanks alone first: an evaluation at the window shows what the console answers for the entry, and no
more differs than the wording for an entry of blanks (`Session.evaluate_agrees`).

One operation can be asked for in three ways: as an expression, as a number, an operator and a
number, and at the panel of the window. Where the operands are literals each way reads the same
numbers (`Expression.solve_operation`, `Arguments.isValue_literal`,
`OperationPanel.readOperand_literal`), so all three give one answer (`operation_agrees`).
-/

namespace Calculator

/-! ## 1. Answers of the console -/

namespace Command

variable {t : Text}

theorem answer?_general (t : Text) :
    (general t).answer? = some ((Expression.solve t).map answerLine) :=
  rfl

theorem answer?_general_eq_ok_iff {r : Text} :
    (general t).answer? = some (.ok ("Result = ".toList ++ r)) ↔
      ∃ x, Expression.solve t = .ok x ∧ x.resultText = r := by
  rw [answer?_general, Option.some.injEq, map_eq_ok_iff]
  exact exists_congr fun x => and_congr_right fun _ => List.append_right_inj "Result = ".toList

theorem answer?_general_eq_error_iff {e : Error} :
    (general t).answer? = some (.error e) ↔ Expression.solve t = .error e := by
  rw [answer?_general, Option.some.injEq, map_eq_error_iff]

end Command

/-! ## 2. Evaluations at the window -/

namespace Expression

/-- A value that is explained is the value. -/
theorem solve_of_explain_eq_ok {t : Text} {x : Double} {working : Working}
    (h : explain t = .ok (x, working)) : solve t = .ok x := by
  rw [← explain_value, h]
  rfl

theorem solve_of_explain_eq_error {t : Text} {e : Error} (h : explain t = .error e) :
    solve t = .error e := by
  rw [← explain_value, h]
  rfl

/-- A value is explained by a working that is not empty. -/
theorem working_ne_empty {t : Text} {x : Double} {working : Working}
    (h : explain t = .ok (x, working)) : working ≠ .empty := by
  intro hempty
  obtain ⟨_, _, -, -, -, hworking⟩ := explain_eq_ok_iff.1 h
  have hclean : t.clean = [] := by
    rw [hempty] at hworking
    exact (congrArg Working.cleaned hworking).symm
  rw [explain_of_clean_eq_nil hclean] at h
  exact nomatch h

end Expression

namespace ExpressionPanel

variable {p : ExpressionPanel}

/-- An entry of blanks alone is told apart. -/
theorem evaluate_of_clean_eq_nil (h : p.entry.clean = []) :
    p.evaluate = p.showError "Entrée vide".toList := by
  rw [evaluate_eq, Expression.explain_of_clean_eq_nil h]
  simp [h]

theorem evaluate_of_explain_eq_ok {x : Double} {working : Working}
    (h : Expression.explain p.entry = .ok (x, working)) :
    p.evaluate = p.showResult x.resultText working := by
  rw [evaluate_eq, h]

theorem evaluate_of_explain_eq_error {e : Error} (h : Expression.explain p.entry = .error e)
    (hclean : p.entry.clean ≠ []) : p.evaluate = p.showError e.message := by
  rw [evaluate_eq, h]
  simp [hclean]

end ExpressionPanel

theorem Session.expression_act_of_evaluates (s : Session) {a : Action} (h : a.evaluates = true) :
    (s.act a).window.expression = s.window.expression.evaluate := by
  rw [expression_act]
  rcases s.window.expression.act_cases a with ⟨-, -, hact⟩ | ⟨he, -⟩ | ⟨he, -⟩
  · exact hact
  · exact absurd (he.symm.trans h) Bool.false_ne_true
  · exact absurd (he.symm.trans h) Bool.false_ne_true

/-- **What an evaluation shows is what the console answers.** Whatever the window shows before, for
    an entry of blanks alone the window has a wording of its own, where the console calls the
    expression invalid; for any other entry the window shows a result text exactly if the console
    answers with it, and the message of an error, beside the last result and without a working,
    exactly if the console answers with that error. -/
theorem Session.evaluate_agrees (s : Session) {a : Action} (ha : a.evaluates = true) :
    let before := s.window.expression
    let after := (s.act a).window.expression
    let t := before.entry
    let answer := (Command.general t).answer?
    (t.trim = [] ↔ t.clean = []) ∧
    (Expression.explain t).map Prod.fst = Expression.solve t ∧
    (t.clean = [] →
      after.error = "Entrée vide".toList ∧ after.result = before.result ∧ after.working = .empty ∧
        answer = some (.error .invalidExpression)) ∧
    (t.clean ≠ [] →
      (∀ r, answer = some (.ok ("Result = ".toList ++ r)) ↔ after.result = r ∧ after.error = []) ∧
      ∀ m, (∃ e, answer = some (.error e) ∧ e.message = m) ↔
        after.error = m ∧ after.result = before.result ∧ after.working = .empty) := by
  intro before after t answer
  have hafter : after = before.evaluate := s.expression_act_of_evaluates ha
  refine ⟨Text.trim_eq_nil_iff, Expression.explain_value t, fun hclean => ?_, fun hclean => ?_⟩
  · have hsolve := Expression.solve_of_explain_eq_error (Expression.explain_of_clean_eq_nil hclean)
    rw [hafter.trans (ExpressionPanel.evaluate_of_clean_eq_nil hclean)]
    exact ⟨rfl, rfl, rfl, Command.answer?_general_eq_error_iff.2 hsolve⟩
  · cases hexplain : Expression.explain t with
    | ok value =>
        obtain ⟨x, working⟩ := value
        have hsolve := Expression.solve_of_explain_eq_ok hexplain
        have hworking := Expression.working_ne_empty hexplain
        have hshown := hafter.trans (ExpressionPanel.evaluate_of_explain_eq_ok hexplain)
        refine ⟨fun r => ?_, fun m => ?_⟩
        · rw [Command.answer?_general_eq_ok_iff, hsolve, hshown]
          simp [ExpressionPanel.showResult]
        · -- the working of a value is what tells it from every error
          simp only [answer, Command.answer?_general_eq_error_iff, hsolve, hshown]
          simp [ExpressionPanel.showResult, hworking]
    | error e =>
        have hsolve := Expression.solve_of_explain_eq_error hexplain
        have hshown := hafter.trans (ExpressionPanel.evaluate_of_explain_eq_error hexplain hclean)
        refine ⟨fun r => ?_, fun m => ?_⟩
        · rw [Command.answer?_general_eq_ok_iff, hsolve, hshown]
          simp [ExpressionPanel.showError, e.message_ne_nil]
        · simp only [answer, Command.answer?_general_eq_error_iff, hsolve, hshown]
          simp [ExpressionPanel.showError]

/-- The result of an earlier entry stays beside the error that the console has for the entry. -/
theorem Session.evaluate_agrees_divided_by_zero :
    let s := Session.start.run
      [.write .entry "7".toList, .enter, .write .entry "1 /(2-2)".toList]
    (s.act (.press .equals)).window.expression.result = "7.0".toList ∧
      ∃ e, (Command.general s.window.expression.entry).answer? = some (.error e) ∧
        e.message = "division par zéro".toList := by
  intro s
  have hclean : s.window.expression.entry.clean ≠ [] := by decide
  have hresult : s.window.expression.result = "7.0".toList := by decide +kernel
  obtain ⟨-, -, -, hother⟩ := s.evaluate_agrees (a := .press .equals) rfl
  have herror := ((hother hclean).2 "division par zéro".toList).2
    ⟨by decide +kernel, by decide +kernel, by decide +kernel⟩
  exact ⟨by decide +kernel, herror⟩

/-! ## 3. Operations on literals -/

section

variable {a b : Literal} {op : Operator} {t : Text}

theorem Literal.isBlank_text (l : Literal) : ∀ c ∈ l.text, isBlank c = false := fun c hc =>
  isBlank_of_isSupported (l.isLexeme_token.isSupported c hc)

/-- **As an expression** two literals and an operator are the operation on the literals' numbers,
    wherever the text has blanks and whatever signs the literals have. -/
theorem Expression.solve_operation (ht : t.clean = a.text ++ op.symbol :: b.text) :
    solve t = Operator.calculate a.value op b.value := by
  have hwritten : Written 0 (.node op (.leaf a) (.leaf b)) ([a.token] ++ [.operator op, b.token]) :=
    .operation (Nat.zero_le _) (.literal _ a) (.literal _ b)
  have htext : t.clean = ([a.token] ++ [.operator op, b.token]).flatMap Token.text := by
    simpa [Literal.token, Token.text] using ht
  rw [solve_of_written hwritten htext, Operator.calculate_eq_apply]
  rfl

/-- **As a word of the command line** each literal is an operand. -/
theorem Arguments.isValue_literal {operands : Operands} {unchecked : Option Text} (l : Literal) :
    (Form.binary operands unchecked).IsValue l.text := by
  obtain ⟨c, r, htext, hc⟩ := l.isLiteral.exists_cons
  exact isValue_withMinus htext hc fun _ => l.isLiteral.isPlainNumber

/-- **In a field of the window** each literal with a finite number is an operand. -/
theorem OperationPanel.readOperand_literal {name field : Text} {l : Literal}
    (hfield : field.IsPadded l.text) (hl : l.value.isFinite = true) :
    readOperand name field = .ok l.value := by
  have htrim := Text.trim_of_isPadded hfield l.isBlank_text
  simp only [readOperand, htrim, l.ofText?_text, hl, if_true]

theorem Literal.exists_isDigit (l : Literal) : ∃ c ∈ l.text, c.isDigit = true := by
  obtain ⟨c, r, hdigits, hc⟩ := l.isLiteral.exists_cons
  refine ⟨c, ?_, hc⟩
  unfold text
  split <;> simp [hdigits]

/-- The text of an operation is an expression of the command line. -/
theorem Arguments.isValue_operation (ht : t.clean = a.text ++ op.symbol :: b.text) :
    (Form.general none).IsValue t := by
  have hsupported : ∀ c ∈ t.clean, Token.isSupported c = true := by
    intro c hc
    rw [ht] at hc
    rcases List.mem_append.1 hc with hc | hc
    · exact a.isLexeme_token.isSupported c hc
    · rcases List.mem_cons.1 hc with rfl | hc
      · cases op <;> rfl
      · exact b.isLexeme_token.isSupported c hc
  refine isValue_of_alphabet ?_ fun c hc => ?_
  · rintro rfl
    obtain ⟨c, hc, hdigit⟩ := a.exists_isDigit
    have hminus : c ∈ Text.clean "--".toList := by
      rw [ht]
      exact List.mem_append_left _ hc
    obtain rfl : c = '-' := by simpa using (List.mem_filter.1 hminus).1
    exact absurd hdigit (by decide)
  · cases hblank : isBlank c with
    | true => exact .inr rfl
    | false =>
        have hmem : c ∈ t.clean := List.mem_filter.2 ⟨hc, by simp [hblank]⟩
        exact .inl (Token.isSupported_iff.1 (hsupported c hmem))

/-- What the panel shows of an operation on two literals. -/
theorem OperationPanel.outcome_literals {p : OperationPanel} (hfirst : p.first.IsPadded a.text)
    (hsecond : p.second.IsPadded b.text) (ha : a.value.isFinite = true)
    (hb : b.value.isFinite = true) :
    p.outcome = match Operator.calculate a.value p.operator b.value with
      | .ok z => .ok z.resultText
      | .error e => .error e.message := by
  rw [outcome, readOperand_literal hfirst ha, readOperand_literal hsecond hb]
  rfl

/-- **The three ways to do one operation agree.** A text that holds two literals with an operator
    between them, and blanks anywhere, is an expression of the command line, and the literals and
    the operator are an operation of it; both commands have one exit code, one standard output and
    one error, at any verbosities. If both literals are finite numbers, the panel with the literals
    in its fields, blanks around them, shows the result that is printed and no error, or the error
    and no result. -/
theorem operation_agrees (ht : t.clean = a.text ++ op.symbol :: b.text) :
    let general := Command.general t
    let binary := Command.binary a.value op b.value
    Arguments.read ["general".toList, t] = .ok ⟨0, general⟩ ∧
    Arguments.read ["binary".toList, a.text, [op.symbol], b.text] = .ok ⟨0, binary⟩ ∧
    (∀ n m, (general.run n).answer = (binary.run m).answer) ∧
    ∀ s : Session, s.window.operation.first.IsPadded a.text →
      s.window.operation.second.IsPadded b.text → s.window.operation.operator = op →
      a.value.isFinite = true → b.value.isFinite = true →
      let p := (s.act (.press .calculate)).window.operation
      ∀ n, ((binary.run n).answer = (0, "Result = ".toList ++ p.result ++ "\n".toList, none) ∧
          p.error = []) ∨
        ((binary.run n).answer = (1, [], some (errorLine p.error)) ∧ p.result = []) := by
  intro general binary
  have hvalue : general.value? = binary.value? := congrArg some (Expression.solve_operation ht)
  refine ⟨Arguments.read_general (Arguments.isValue_operation ht),
    Arguments.read_binary op (Arguments.isValue_literal a) a.ofText?_text
      (Arguments.isValue_literal b) b.ofText?_text,
    Command.answer_run_congr hvalue rfl, ?_⟩
  intro s hfirst hsecond hop ha hb p n
  have houtcome := OperationPanel.outcome_literals hfirst hsecond ha hb
  rw [hop] at houtcome
  have hp : p = s.window.operation.calculate := s.operation_act _
  cases hz : Operator.calculate a.value op b.value with
  | ok z =>
      rw [hz] at houtcome
      have hshown : p = s.window.operation.showResult z.resultText := by
        rw [hp, OperationPanel.calculate, houtcome]
      have hvalue : binary.value? = some (.ok z) := congrArg some hz
      rw [hshown]
      exact .inl ⟨Command.answer_run_of_ok hvalue n, rfl⟩
  | error e =>
      rw [hz] at houtcome
      have hshown : p = s.window.operation.showError e.message := by
        rw [hp, OperationPanel.calculate, houtcome]
      have hvalue : binary.value? = some (.error e) := congrArg some hz
      rw [hshown]
      exact .inr ⟨Command.answer_run_of_error hvalue n, rfl⟩

/-- A minus sign of each kind, blanks, and a field with blanks of different kinds around it. -/
theorem operation_agrees_three_minus_signs :
    let s := Session.start.run
      [.write .first "\t-7".toList, .choose .subtraction, .write .second " -0.5\u3000".toList]
    Arguments.read ["general".toList, "-7 - -0. 5".toList] = .ok ⟨0, .general "-7 - -0. 5".toList⟩ ∧
    (s.act (.press .calculate)).window.operation.result = "-6.5".toList ∧
    ((Command.general "-7 - -0. 5".toList).run 3).answer =
      (0, "Result = ".toList ++ "-6.5".toList ++ "\n".toList, none) := by
  intro s
  have ht : Text.clean "-7 - -0. 5".toList = Literal.text ⟨true, ['7'], .inl (by decide)⟩ ++
      Operator.symbol .subtraction ::
        Literal.text ⟨true, "0.5".toList, .inr ⟨['0'], ['5'], by decide, by decide, rfl⟩⟩ := by
    decide
  obtain ⟨hgeneral, -, hruns, hpanel⟩ := operation_agrees ht
  have hfirst : s.window.operation.first.IsPadded "-7".toList :=
    ⟨['\t'], [], List.forall_mem_singleton.2 rfl, List.forall_mem_nil _, rfl⟩
  have hsecond : s.window.operation.second.IsPadded "-0.5".toList :=
    ⟨[' '], ['\u3000'], List.forall_mem_singleton.2 rfl, List.forall_mem_singleton.2 rfl, rfl⟩
  have hresult : (s.act (.press .calculate)).window.operation.result = "-6.5".toList := by
    decide +kernel
  refine ⟨hgeneral, hresult, (hruns 3 0).trans ?_⟩
  rcases hpanel s hfirst hsecond rfl (by decide +kernel) (by decide +kernel) 0 with h | h
  · rw [← hresult]
    exact h.1
  · exact absurd (h.2.symm.trans hresult) (by decide)

end

end Calculator

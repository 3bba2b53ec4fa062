import Calculator.Expression
import Calculator.Proofs.Number.Division
import Calculator.Window.OperationPanel

/-!
# Divisions

Wherever the division sign stands it does the same: on its own (`Operator.calculate_eq_apply`), in
an expression (`Expression.solve_division`) and in the panel for one operation
(`OperationPanel.calculate_of_readOperand`). Main statement: `division_sound_iff`, which divisions
of finite numbers are as they should be.
-/

namespace Calculator

variable {x y : Double}

/-- **A division sign divides the two values on top of those before it**, and the value or the error
    of the text goes on from there. -/
theorem Expression.solve_division {t : Text} {tokens : List Token} {before after : Postfix}
    {stack : List Double} (ht : Token.ofText t = .ok tokens)
    (he : Postfix.ofTokens tokens = .ok (before ++ .operator .division :: after))
    (hrun : Postfix.run [] before = .ok (y :: x :: stack)) :
    solve t = (x.divide y).bind fun z => (Postfix.run (z :: stack) after).bind Postfix.result := by
  have hstep : Postfix.run (y :: x :: stack) (.operator .division :: after) =
      (x.divide y).bind fun z => Postfix.run (z :: stack) after := by
    rw [Postfix.run, Operator.apply]
    cases x.divide y <;> rfl
  calc solve t = (Postfix.run [] (before ++ .operator .division :: after)).bind Postfix.result := by
        rw [solve_of_ofText ht, he]
        rfl
    _ = ((x.divide y).bind fun z => Postfix.run (z :: stack) after).bind Postfix.result := by
        rw [Postfix.run_append, hrun, ← hstep]
        rfl
    _ = (x.divide y).bind fun z => (Postfix.run (z :: stack) after).bind Postfix.result := by
        cases x.divide y <;> rfl

/-- What the panel shows of an operation on two numbers. -/
theorem OperationPanel.calculate_of_readOperand {p : OperationPanel}
    (hx : readOperand "premier nombre".toList p.first = .ok x)
    (hy : readOperand "second nombre".toList p.second = .ok y) :
    p.calculate = match p.operator.apply x y with
      | .ok z => p.showResult z.resultText
      | .error e => p.showError e.message := by
  have houtcome : p.outcome = match p.operator.apply x y with
      | .ok z => .ok z.resultText
      | .error e => .error e.message := by
    rw [outcome, hx, hy, ← Operator.calculate_eq_apply]
    rfl
  rw [calculate, houtcome]
  cases p.operator.apply x y <;> rfl

/-- **Which divisions are as they should be.** Of the finite divisors the two zeros are refused and
    no other. Another one gives a sound quotient exactly if it is larger than `2 ^ -1024`, or if the
    quotient is beyond the end of the range anyway; else its reciprocal is infinite and makes an
    infinity of the quotient, or no number of the quotient of a zero. An operation on its own, every
    division sign of an expression and the panel for one operation divide in this way. -/
theorem division_sound_iff {p q : Rat} (hx : x.toRat? = some p) (hy : y.toRat? = some q) :
    (∀ e, x.divide y = .error e ↔ (∃ negative, y = .zero negative) ∧ e = .divisionByZero) ∧
    (q ≠ 0 → ∃ z, x.divide y = .ok z ∧
      (Number.IsSoundQuotient p q z ↔
        (2 : Rat) ^ (-1024 : Int) < |q| ∨ p ≠ 0 ∧ (2 : Rat) ^ (1023 : Int) < |p / q|)) ∧
    Operator.calculate x .division y = x.divide y ∧
    (∀ t tokens before after stack, Token.ofText t = .ok tokens →
      Postfix.ofTokens tokens = .ok (before ++ .operator .division :: after) →
      Postfix.run [] before = .ok (y :: x :: stack) →
      Expression.solve t =
        (x.divide y).bind fun z => (Postfix.run (z :: stack) after).bind Postfix.result) ∧
    ∀ panel : OperationPanel, panel.operator = .division →
      OperationPanel.readOperand "premier nombre".toList panel.first = .ok x →
      OperationPanel.readOperand "second nombre".toList panel.second = .ok y →
      panel.calculate = match x.divide y with
        | .ok z => panel.showResult z.resultText
        | .error e => panel.showError e.message := by
  refine ⟨fun e => ?_, Number.divide_isSoundQuotient_iff hx hy,
    Operator.calculate_eq_apply _ _ _, ?_, ?_⟩
  · rw [Number.divide_eq_error_iff, Number.isZero_iff]
  · intro t tokens before after stack ht he hrun
    exact Expression.solve_division ht he hrun
  · intro panel hop hfirst hsecond
    rw [OperationPanel.calculate_of_readOperand hfirst hsecond, hop]
    rfl

/-- A divisor below the normal range has a reciprocal all the same, if it is not too small. -/
theorem division_sound_iff_subnormal :
    let y : Double := .finite false ⟨2 ^ 51, -1074, by decide⟩
    (Number.zero true : Double).toRat? = some 0 ∧ y.toRat? = some (2 ^ (-1023 : Int)) ∧
      ∃ z, (Number.zero true).divide y = .ok z ∧
        Number.IsSoundQuotient 0 (2 ^ (-1023 : Int)) z := by
  intro y
  have hx : (Number.zero true : Double).toRat? = some 0 := by
    rw [Number.zero, Number.toRat?_finite, Magnitude.toRat_zero]
    rfl
  have hy : y.toRat? = some (2 ^ (-1023 : Int)) := by
    show some (((2 ^ 51 : Nat) : Rat) * 2 ^ (-1074 : Int)) = _
    rw [← two_zpow_natCast, ← zpow_add₀ two_ne_zero]
    rfl
  have hpos := two_zpow_pos (-1023)
  obtain ⟨z, hz, hsound⟩ := (division_sound_iff hx hy).2.1 hpos.ne'
  refine ⟨hx, hy, z, hz, hsound.2 (.inl ?_)⟩
  rw [abs_of_pos hpos]
  exact zpow_lt_zpow_right₀ one_lt_two (by decide)

/-- The least divisor has no reciprocal, and zero times an infinity is no number. -/
theorem zero_divide_least :
    let y : Double := .finite false ⟨1, -1074, by decide⟩
    y.toRat? = some (2 ^ (-1074 : Int)) ∧ (Number.zero false).divide y = .ok .nan := by
  intro y
  have hvalue : Magnitude.toRat (f := .binary64) ⟨1, -1074, by decide⟩ = 2 ^ (-1074 : Int) := by
    rw [Magnitude.toRat, Nat.cast_one, one_mul]
  have hpos : 0 < Magnitude.toRat (f := .binary64) ⟨1, -1074, by decide⟩ := by
    rw [hvalue]
    exact two_zpow_pos _
  refine ⟨congrArg some hvalue, ?_⟩
  refine Number.divide_finite_of_nearest?_eq_none hpos (Magnitude.nearest?_inv_eq_none hpos ?_)
  rw [hvalue]
  exact zpow_le_zpow_right₀ one_le_two (by decide)

end Calculator

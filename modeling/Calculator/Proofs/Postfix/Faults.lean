import Calculator.Proofs.Postfix.Conservation

/-!
# What can be at fault with tokens

A conversion stops at the first token that it cannot take (`shiftAll_eq_error_iff`): a number that
does not read, or a closing bracket that finds none to close (`shift_eq_error_iff`). If it comes to
the end, only a bracket that still waits is at fault (`flush_eq_error_iff`). Main statement:
`ofTokens_cases`, where the numbers read the brackets alone decide.
-/

namespace Calculator

namespace Token

/-- The token is no number, or a number that reads. -/
def Reads (tok : Token) : Prop :=
  tok.isNumber = true → ∃ x, tok.value? = some x

end Token

namespace Postfix

open Token (depth? depthAfter?)

/-! ## 1. The steps -/

theorem close_eq_error_iff {waiting : List Waiting} {e : Error} :
    close waiting = .error e ↔ openBrackets waiting = 0 ∧ e = .unmatchedRight := by
  induction waiting with
  | nil =>
      constructor
      · intro h
        exact ⟨rfl, (Except.error.inj h).symm⟩
      · rintro ⟨-, rfl⟩
        rfl
  | cons top waiting ih =>
      cases top with
      | leftBracket => simp [close, openBrackets_leftBracket]
      | operator op => rw [close, map_eq_error_iff, ih, openBrackets_operator]

theorem flush_eq_error_iff {waiting : List Waiting} {e : Error} :
    flush waiting = .error e ↔ 0 < openBrackets waiting ∧ e = .unmatchedLeft := by
  induction waiting with
  | nil => simp [flush, openBrackets]
  | cons top waiting ih =>
      cases top with
      | leftBracket =>
          rw [openBrackets_leftBracket]
          constructor
          · intro h
            exact ⟨Nat.succ_pos _, (Except.error.inj h).symm⟩
          · rintro ⟨-, rfl⟩
            rfl
      | operator op => rw [flush, map_eq_error_iff, ih, openBrackets_operator]

/-- **What a token can be at fault with**: a number that does not read, or a closing bracket where
    none is open. -/
theorem shift_eq_error_iff {waiting : List Waiting} {tok : Token} {e : Error} :
    shift waiting tok = .error e ↔
      (tok.isNumber = true ∧ tok.value? = none ∧ e = .invalidExpression) ∨
      (tok = .rightBracket ∧ openBrackets waiting = 0 ∧ e = .unmatchedRight) := by
  cases tok with
  | number negative text =>
      have hv : Token.value? (.number negative text) = Number.ofText? text := rfl
      rw [shift, hv]
      cases Number.ofText? text with
      | some x => simp
      | none => simp [Token.isNumber, eq_comm]
  | operator op => simp [shift, Token.isNumber]
  | leftBracket => simp [shift, Token.isNumber]
  | rightBracket => simp [shift, Token.isNumber, close_eq_error_iff]

/-! ## 2. The first token at fault -/

/-- **A conversion stops at the first token that it cannot take.** -/
theorem shiftAll_eq_error_iff {waiting : List Waiting} {ts : List Token} {e : Error} :
    shiftAll waiting ts = .error e ↔
      ∃ pre tok post out waiting', ts = pre ++ tok :: post ∧
        shiftAll waiting pre = .ok (out, waiting') ∧ shift waiting' tok = .error e := by
  constructor
  · intro h
    induction ts generalizing waiting with
    | nil => simp [shiftAll] at h
    | cons tok ts ih =>
        cases hs : shift waiting tok with
        | error e' =>
            rw [shiftAll, hs] at h
            exact ⟨[], tok, ts, [], waiting, rfl, rfl, hs.trans h⟩
        | ok r =>
            obtain ⟨first, waiting₁⟩ := r
            rw [shiftAll_cons_of_ok hs, map_eq_error_iff] at h
            obtain ⟨pre, tok', post, out, waiting', rfl, hpre, htok⟩ := ih h
            refine ⟨tok :: pre, tok', post, first ++ out, waiting', rfl, ?_, htok⟩
            exact shiftAll_cons_eq_ok_iff.2 ⟨first, waiting₁, out, hs, hpre, rfl⟩
  · rintro ⟨pre, tok, post, out, waiting', rfl, hpre, htok⟩
    rw [shiftAll_append_of_ok hpre, map_eq_error_iff, shiftAll, htok]

/-- Where the numbers read, a closing bracket where none is open is the only fault. -/
theorem depth?_of_shiftAll_eq_error {waiting : List Waiting} {ts : List Token} {e : Error}
    (hread : ∀ tok ∈ ts, tok.Reads) (h : shiftAll waiting ts = .error e) :
    depth? (openBrackets waiting) ts = none ∧ e = .unmatchedRight := by
  obtain ⟨pre, tok, post, out, waiting', rfl, hpre, htok⟩ := shiftAll_eq_error_iff.1 h
  rcases shift_eq_error_iff.1 htok with ⟨hn, hnone, -⟩ | ⟨rfl, hopen, rfl⟩
  · obtain ⟨x, hx⟩ := hread tok (by simp) hn
    rw [hnone] at hx
    simp at hx
  · refine ⟨?_, rfl⟩
    rw [Token.depth?_append, (conserves_shiftAll hpre).depth, hopen]
    rfl

/-- **Where the numbers read the brackets decide**: one that is closed and not open, else one that
    is left open, else there is a form. -/
theorem ofTokens_cases {ts : List Token} (hread : ∀ tok ∈ ts, tok.Reads) :
    (depth? 0 ts = none ∧ ofTokens ts = .error .unmatchedRight) ∨
      (∃ d, depth? 0 ts = some (d + 1) ∧ ofTokens ts = .error .unmatchedLeft) ∨
      (depth? 0 ts = some 0 ∧ ∃ es, ofTokens ts = .ok es) := by
  cases hs : shiftAll [] ts with
  | error e =>
      obtain ⟨hd, rfl⟩ := depth?_of_shiftAll_eq_error hread hs
      exact Or.inl ⟨hd, by rw [ofTokens, hs]⟩
  | ok r =>
      obtain ⟨out, waiting⟩ := r
      have hd : depth? 0 ts = some (openBrackets waiting) := (conserves_shiftAll hs).depth
      cases hf : flush waiting with
      | error e =>
          obtain ⟨hpos, rfl⟩ := flush_eq_error_iff.1 hf
          obtain ⟨d, hd'⟩ := Nat.exists_eq_succ_of_ne_zero (Nat.ne_of_gt hpos)
          refine Or.inr (Or.inl ⟨d, by rw [hd, hd'], ?_⟩)
          simp only [ofTokens, hs, hf]
          rfl
      | ok out' =>
          obtain ⟨ops, -, rfl⟩ := flush_eq_ok_iff.1 hf
          rw [openBrackets_waitingFor] at hd
          exact Or.inr (Or.inr ⟨hd, _, ofTokens_eq_ok_iff.2 ⟨out, ops, hs, rfl⟩⟩)

/-! ## 3. Values -/

theorem run_eq_error {stack : List Double} {es : Postfix} {e : Error}
    (h : run stack es = .error e) : e = .divisionByZero ∨ e = .invalidExpression := by
  fun_induction run stack es with
  | case1 => simp at h
  | case2 stack x es ih => exact ih h
  | case3 second first stack op es x hop ih => exact ih h
  | case4 second first stack op es err hop =>
      obtain rfl := Except.error.inj h
      exact Or.inl (Operator.apply_eq_error hop)
  | case5 => exact Or.inr (Except.error.inj h).symm

/-- **A form has no value only for want of an operand or an operator, or for a zero divisor.** -/
theorem value_eq_error {es : Postfix} {e : Error} (h : es.value = .error e) :
    e = .divisionByZero ∨ e = .invalidExpression := by
  obtain hrun | ⟨stack, -, hresult⟩ := bind_eq_error_iff.1 h
  · exact run_eq_error hrun
  · rcases stack with _ | ⟨x, _ | ⟨y, stack⟩⟩
    · exact Or.inr (Except.error.inj hresult).symm
    · exact nomatch hresult
    · exact Or.inr (Except.error.inj hresult).symm

end Postfix

end Calculator

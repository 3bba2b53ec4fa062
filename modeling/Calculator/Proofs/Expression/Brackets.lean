import Calculator.Expression
import Calculator.Proofs.Postfix.Frame
import Calculator.Proofs.Token.Cut

/-!
# Expressions in brackets stand for their values

A text in brackets is cut into the tokens that it has alone, whatever stands around it
(`ofText_around`). With what becomes of these tokens (`Postfix.exists_outcome`), what stands around
brackets is a function of the value between them (`exists_solve_around`). Main statement:
`solve_around_congr`, in any text an expression in brackets can be replaced by another of the same
value, and only a position behind it can tell the two apart.
-/

namespace Calculator

/-- The text in brackets. -/
def Text.bracketed (t : Text) : Text :=
  '(' :: t ++ [')']

open Text (bracketed)

theorem Text.clean_bracketed (t : Text) : (bracketed t).clean = bracketed t.clean := by
  show clean (['('] ++ t ++ [')']) = _
  rw [clean_append, clean_append]
  rfl

/-! ## 1. The tokens -/

namespace Token

theorem scan_leftBracket (position : Nat) (b : Bool) (t : Text) :
    scan position b ('(' :: t) = (scan (position + 1) false t).map (.leftBracket :: ·) :=
  scan_of_next? (next?_of_ofChar? (by decide) (negated?_of_ne (by decide)) rfl)

theorem scan_rightBracket (position : Nat) (b : Bool) (t : Text) :
    scan position b (')' :: t) = (scan (position + 1) true t).map (.rightBracket :: ·) :=
  scan_of_next? (next?_of_ofChar? (by decide) (negated?_of_ne (by decide)) rfl)

/-- **The scan between brackets starts anew**, and behind them an operand has ended. -/
theorem scan_bracketed {t : Text} {ts : List Token} (h : scan 0 false t = .ok ts) (position : Nat)
    (b : Bool) (u : Text) :
    scan position b (bracketed t ++ u) =
      (scan (position + (bracketed t).length) true u).map
        ((.leftBracket :: ts ++ [.rightBracket]) ++ ·) := by
  have hu : IsBoundary (')' :: u) := isBoundary_cons.2 ⟨by decide, by decide⟩
  have htext : bracketed t ++ u = '(' :: (t ++ ')' :: u) := by simp [bracketed]
  have hlen : position + 1 + t.length + 1 = position + (bracketed t).length := by
    simp [bracketed]
    omega
  rw [htext, scan_leftBracket, scan_append hu, scan_ok_anywhere h]
  show ((scan (position + 1 + t.length) (operandAfter false ts) (')' :: u)).map (ts ++ ·)).map
    (.leftBracket :: ·) = _
  rw [scan_rightBracket, hlen]
  cases scan (position + (bracketed t).length) true u with
  | error e => rfl
  | ok us => simp [Except.map]

theorem unsupported_around {s t u : Text} (h : unsupported t = []) :
    unsupported (s ++ t ++ u) = unsupported (s ++ u) := by
  have ht : (t.filter fun c => !isSupported c) = [] := Text.distinct_eq_nil_iff.1 h
  rw [unsupported, List.filter_append, List.filter_append, ht, List.append_nil,
    ← List.filter_append]
  rfl

/-- **The tokens of a text around brackets**: those before, those that the text between the brackets
    has alone, and those behind. -/
theorem ofText_around {t : Text} {ts : List Token} (h : ofText t = .ok ts) (pre post : Text) :
    ofText (pre ++ bracketed t ++ post) =
      if unsupported (pre.clean ++ post.clean) = [] then
        (scan 0 false pre.clean).bind fun before =>
          (scan (pre ++ bracketed t).clean.length true post.clean).map fun after =>
            before ++ ((.leftBracket :: ts ++ [.rightBracket]) ++ after)
      else .error (.unsupportedCharacters (unsupported (pre.clean ++ post.clean))) := by
  obtain ⟨hsup, hscan⟩ := ofText_eq_ok_iff.1 h
  have hclean : (pre ++ bracketed t ++ post).clean =
      pre.clean ++ bracketed t.clean ++ post.clean := by
    rw [Text.clean_append, Text.clean_append, Text.clean_bracketed]
  have hsup : unsupported (bracketed t.clean) = [] := by
    refine unsupported_eq_nil_iff.2 fun c hc => ?_
    rcases List.mem_append.1 hc with hc | hc
    · rcases List.mem_cons.1 hc with rfl | hc
      · rfl
      · exact unsupported_eq_nil_iff.1 hsup c hc
    · rw [List.mem_singleton.1 hc]
      rfl
  have hbound : IsBoundary (bracketed t.clean ++ post.clean) :=
    isBoundary_cons.2 ⟨by decide, by decide⟩
  have hlen : 0 + pre.clean.length + (bracketed t.clean).length =
      (pre ++ bracketed t).clean.length := by
    rw [Text.clean_append, Text.clean_bracketed, List.length_append, Nat.zero_add]
  rw [ofText_eq, hclean, unsupported_around hsup, List.append_assoc, scan_append hbound]
  congr 2
  funext before
  rw [scan_bracketed hscan, hlen]
  cases scan (pre ++ bracketed t).clean.length true post.clean <;> rfl

end Token

/-! ## 2. The value -/

namespace Expression

/-- A text in brackets has the value that it has alone. -/
theorem solve_bracketed {t : Text} {x : Double} (h : solve t = .ok x) :
    solve (bracketed t) = .ok x := by
  obtain ⟨ts, es, ht, he, hx⟩ := solve_eq_ok_iff.1 h
  have hofText : Token.ofText (bracketed t) = .ok (.leftBracket :: ts ++ [.rightBracket]) := by
    have hsup : Token.unsupported (Text.clean [] ++ Text.clean []) = [] := rfl
    have hscan : ∀ position b, Token.scan position b (Text.clean []) = .ok [] := Token.scan_nil
    have haround := Token.ofText_around ht [] []
    rw [if_pos hsup, hscan, hscan, List.nil_append, List.append_nil] at haround
    rw [haround]
    exact congrArg Except.ok (List.append_nil _)
  have hofTokens : Postfix.ofTokens (.leftBracket :: ts ++ [.rightBracket]) = .ok es := by
    refine Postfix.ofTokens_eq_ok_iff.2 ⟨es, [], Postfix.shiftAll_of_ofTokens he [], ?_⟩
    exact (List.append_nil es).symm
  exact solve_eq_ok_iff.2 ⟨_, es, hofText, hofTokens, hx⟩

/-- **Around brackets a text makes a function of the value between them**, or no token starts at
    some place behind them. -/
theorem exists_solve_around (pre post : Text) :
    (∃ outcome : Double → Except Error Double, ∀ e x, solve e = .ok x →
      solve (pre ++ bracketed e ++ post) = outcome x) ∨
    ∃ k fragment, k < post.clean.length ∧ ∀ e x, solve e = .ok x →
      solve (pre ++ bracketed e ++ post) =
        .error (.malformedNumber ((pre ++ bracketed e).clean.length + k) fragment) := by
  by_cases hsup : Token.unsupported (pre.clean ++ post.clean) = []
  · cases hpre : Token.scan 0 false pre.clean with
    | error err =>
        refine Or.inl ⟨fun _ => .error err, fun e x he => ?_⟩
        obtain ⟨ts, -, ht, -⟩ := solve_eq_ok_iff.1 he
        have htext := Token.ofText_around ht pre post
        rw [if_pos hsup, hpre] at htext
        exact solve_of_ofText_eq_error htext
    | ok before =>
        cases hpost : Token.scan 0 true post.clean with
        | error err =>
            obtain ⟨k, fragment, hk, hall⟩ := Token.scan_error_anywhere hpost
            refine Or.inr ⟨k, fragment, hk, fun e x he => ?_⟩
            obtain ⟨ts, -, ht, -⟩ := solve_eq_ok_iff.1 he
            have htext := Token.ofText_around ht pre post
            rw [if_pos hsup, hpre, hall] at htext
            exact solve_of_ofText_eq_error htext
        | ok after =>
            obtain ⟨outcome, hout⟩ := Postfix.exists_outcome before after
            refine Or.inl ⟨outcome, fun e x he => ?_⟩
            obtain ⟨ts, es, ht, hes, hx⟩ := solve_eq_ok_iff.1 he
            have htext := Token.ofText_around ht pre post
            rw [if_pos hsup, hpre, Token.scan_ok_anywhere hpost] at htext
            rw [solve_of_ofText htext]
            exact hout ts es x hes hx
  · refine Or.inl ⟨fun _ => .error (.unsupportedCharacters
      (Token.unsupported (pre.clean ++ post.clean))), fun e x he => ?_⟩
    obtain ⟨ts, -, ht, -⟩ := solve_eq_ok_iff.1 he
    have htext := Token.ofText_around ht pre post
    rw [if_neg hsup] at htext
    exact solve_of_ofText_eq_error htext

/-- **In any text an expression in brackets can be replaced by another of the same value**, and in
    brackets alone it has that value. If behind the brackets there is a place where no token
    starts, the error is about the same place of the text that follows them. -/
theorem solve_around_congr {e₁ e₂ : Text} {x : Double} (h₁ : solve e₁ = .ok x)
    (h₂ : solve e₂ = .ok x) (pre post : Text) :
    (solve (pre ++ bracketed e₁ ++ post) = solve (pre ++ bracketed e₂ ++ post) ∨
      ∃ k fragment, k < post.clean.length ∧
        solve (pre ++ bracketed e₁ ++ post) =
          .error (.malformedNumber ((pre ++ bracketed e₁).clean.length + k) fragment) ∧
        solve (pre ++ bracketed e₂ ++ post) =
          .error (.malformedNumber ((pre ++ bracketed e₂).clean.length + k) fragment)) ∧
      solve (bracketed e₁) = .ok x ∧ solve (bracketed e₂) = .ok x := by
  refine ⟨?_, solve_bracketed h₁, solve_bracketed h₂⟩
  rcases exists_solve_around pre post with ⟨outcome, hout⟩ | ⟨k, fragment, hk, herr⟩
  · exact Or.inl ((hout e₁ x h₁).trans (hout e₂ x h₂).symm)
  · exact Or.inr ⟨k, fragment, hk, herr e₁ x h₁, herr e₂ x h₂⟩

/-- The two sides of a sum with the same value, before a point that belongs to no number. -/
theorem solve_around_congr_sum :
    solve "1+2".toList = .ok (.nearest 3) ∧ solve "(6)/ 2".toList = .ok (.nearest 3) ∧
      (solve ("2-".toList ++ bracketed "1+2".toList ++ "*.5".toList) =
          solve ("2-".toList ++ bracketed "(6)/ 2".toList ++ "*.5".toList) ∨
        ∃ k fragment, k < (Text.clean "*.5".toList).length ∧
          solve ("2-".toList ++ bracketed "1+2".toList ++ "*.5".toList) =
            .error (.malformedNumber
              ((Text.clean ("2-".toList ++ bracketed "1+2".toList)).length + k) fragment) ∧
          solve ("2-".toList ++ bracketed "(6)/ 2".toList ++ "*.5".toList) =
            .error (.malformedNumber
              ((Text.clean ("2-".toList ++ bracketed "(6)/ 2".toList)).length + k) fragment)) ∧
      solve (bracketed "1+2".toList) = .ok (.nearest 3) ∧
      solve (bracketed "(6)/ 2".toList) = .ok (.nearest 3) := by
  have h₁ : solve "1+2".toList = .ok (.nearest 3) := eq_ok_of_toOption (by decide +kernel)
  have h₂ : solve "(6)/ 2".toList = .ok (.nearest 3) := eq_ok_of_toOption (by decide +kernel)
  exact ⟨h₁, h₂, solve_around_congr h₁ h₂ _ _⟩

end Expression

end Calculator

import Calculator.Expression
import Calculator.Proofs.Postfix.Faults
import Calculator.Proofs.Token.Cut
import Calculator.Text.Brackets

/-!
# Brackets that do not match

Tokens are followed by how many brackets are open after them (`Token.depth?`), a text by counting
its brackets. For tokens of a text the two say the same (`depth?_eq_none_iff`, `count_of_depth?`).
Main statement: `solve_eq_unmatched_iff`, a text that has tokens is answered with a bracket error
exactly if its brackets do not match, whatever else is wrong with it.
-/

namespace Calculator

/-! ## 1. Brackets of tokens and of their text -/

namespace Token

open Text (Overcloses overcloses_append overcloses_leftBracket overcloses_rightBracket
  not_overcloses_nil)

/-- No character of a number is a bracket. -/
theorem IsLexeme.ne_bracket {tok : Token} (h : tok.IsLexeme) (hb : tok.isBracket = false) :
    ∀ c ∈ tok.text, c ≠ '(' ∧ c ≠ ')' := by
  have hdigits : ∀ w : Text, IsLiteral w → ∀ c ∈ w, c ≠ '(' ∧ c ≠ ')' := by
    intro w hw c hc
    have hc := hw.isDigitOrPoint c hc
    constructor
    · rintro rfl
      exact absurd hc (by decide)
    · rintro rfl
      exact absurd hc (by decide)
  intro c hc
  cases tok with
  | number negative t =>
      cases negative with
      | false => exact hdigits t h c hc
      | true =>
          obtain ⟨w, hw, rfl⟩ := h
          rcases List.mem_cons.1 hc with rfl | hc
          · decide
          · exact hdigits w hw c hc
  | operator op =>
      rw [List.mem_singleton.1 hc]
      cases op <;> decide
  | leftBracket => exact absurd hb (by decide)
  | rightBracket => exact absurd hb (by decide)

theorem depthAfter?_of_isBracket {tok : Token} (hb : tok.isBracket = false) (d : Nat) :
    depthAfter? d tok = some d := by
  cases tok with
  | number negative t => rfl
  | operator op => rfl
  | leftBracket => exact absurd hb (by decide)
  | rightBracket => exact absurd hb (by decide)

/-- **A bracket that is closed and not open is one that some beginning of the text closes too
    often.** -/
theorem depth?_eq_none_iff {d : Nat} {ts : List Token} (h : ∀ tok ∈ ts, tok.IsLexeme) :
    depth? d ts = none ↔ Overcloses d (ts.flatMap text) := by
  induction ts generalizing d with
  | nil => simp [depth?, not_overcloses_nil]
  | cons tok ts ih =>
      have ih : ∀ d, depth? d ts = none ↔ Overcloses d (ts.flatMap text) :=
        fun _ => ih fun tok' htok => h tok' (List.mem_cons_of_mem _ htok)
      rw [depth?, List.flatMap_cons]
      cases hb : tok.isBracket with
      | false =>
          rw [depthAfter?_of_isBracket hb, overcloses_append ((h tok (by simp)).ne_bracket hb)]
          exact ih d
      | true =>
          cases tok with
          | number negative t => exact absurd hb Bool.false_ne_true
          | operator op => exact absurd hb Bool.false_ne_true
          | leftBracket => exact (ih (d + 1)).trans overcloses_leftBracket.symm
          | rightBracket =>
              refine Iff.trans ?_ overcloses_rightBracket.symm
              rw [depthAfter?]
              by_cases hd : d = 0
              · simp [hd]
              · rw [if_neg hd]
                simp only [hd, false_or]
                exact ih (d - 1)

/-- The brackets that are open are those before, and those opened, without those closed. -/
theorem count_of_depth? {d d' : Nat} {ts : List Token} (h : ∀ tok ∈ ts, tok.IsLexeme)
    (hd : depth? d ts = some d') :
    d + (ts.flatMap text).count '(' = d' + (ts.flatMap text).count ')' := by
  induction ts generalizing d with
  | nil =>
      obtain rfl : d = d' := Option.some.inj hd
      rfl
  | cons tok ts ih =>
      have ih : ∀ {d}, depth? d ts = some d' →
          d + (ts.flatMap text).count '(' = d' + (ts.flatMap text).count ')' :=
        ih fun tok' htok => h tok' (List.mem_cons_of_mem _ htok)
      rw [depth?] at hd
      rw [List.flatMap_cons, List.count_append, List.count_append]
      cases hb : tok.isBracket with
      | false =>
          rw [depthAfter?_of_isBracket hb] at hd
          have hne := (h tok (by simp)).ne_bracket hb
          rw [List.count_eq_zero.2 fun hc => (hne _ hc).1 rfl,
            List.count_eq_zero.2 fun hc => (hne _ hc).2 rfl, Nat.zero_add, Nat.zero_add]
          exact ih hd
      | true =>
          cases tok with
          | number negative t => exact absurd hb Bool.false_ne_true
          | operator op => exact absurd hb Bool.false_ne_true
          | leftBracket =>
              have ih := ih (d := d + 1) hd
              show d + (1 + _) = d' + (0 + _)
              omega
          | rightBracket =>
              rw [depthAfter?] at hd
              by_cases h0 : d = 0
              · simp [h0] at hd
              · rw [if_neg h0] at hd
                have ih := ih (d := d - 1) hd
                show d + (0 + _) = d' + (1 + _)
                omega

/-- The brackets of tokens are those of their text. -/
theorem countP_isBracket {ts : List Token} (h : ∀ tok ∈ ts, tok.IsLexeme) :
    ts.countP isBracket = (ts.flatMap text).count '(' + (ts.flatMap text).count ')' := by
  induction ts with
  | nil => rfl
  | cons tok ts ih =>
      have ih := ih fun tok' htok => h tok' (List.mem_cons_of_mem _ htok)
      rw [List.flatMap_cons, List.count_append, List.count_append]
      cases hb : tok.isBracket with
      | false =>
          have hne := (h tok (by simp)).ne_bracket hb
          rw [List.countP_cons_of_neg (by simp [hb]), ih,
            List.count_eq_zero.2 fun hc => (hne _ hc).1 rfl,
            List.count_eq_zero.2 fun hc => (hne _ hc).2 rfl, Nat.zero_add, Nat.zero_add]
      | true =>
          rw [List.countP_cons_of_pos hb, ih]
          cases tok with
          | number negative t => exact absurd hb Bool.false_ne_true
          | operator op => exact absurd hb Bool.false_ne_true
          | leftBracket =>
              show _ = 1 + _ + (0 + _)
              omega
          | rightBracket =>
              show _ = 0 + _ + (1 + _)
              omega

/-- **A text has as many brackets as its tokens.** -/
theorem countP_isBracket_of_ofText {t : Text} {ts : List Token} (h : ofText t = .ok ts) :
    ts.countP isBracket = t.count '(' + t.count ')' := by
  obtain ⟨htext, hcut⟩ := isCutAfter_of_ofText h
  rw [countP_isBracket hcut.isLexeme, htext, Text.count_clean (by decide),
    Text.count_clean (by decide)]

/-- **Every number that is cut from a text reads.** -/
theorem IsLexeme.reads {tok : Token} (h : tok.IsLexeme) : tok.Reads := by
  intro hn
  cases tok with
  | number negative t =>
      cases negative with
      | false =>
          have hl : IsLiteral t := h
          exact hl.exists_ofText?.1
      | true =>
          obtain ⟨w, hl, rfl⟩ := h
          exact hl.exists_ofText?.2
  | operator op => exact absurd hn Bool.false_ne_true
  | leftBracket => exact absurd hn Bool.false_ne_true
  | rightBracket => exact absurd hn Bool.false_ne_true

end Token

/-! ## 2. The answer for a text -/

namespace Expression

open Text (ClosesUnopened LeavesOpen overcloses_zero)

/-- What is answered for a text that has tokens, told apart by its brackets. -/
theorem solve_cases {t : Text} {ts : List Token} (h : Token.ofText t = .ok ts) :
    (t.clean.ClosesUnopened ∧ solve t = .error .unmatchedRight) ∨
      (¬ t.clean.ClosesUnopened ∧ t.clean.LeavesOpen ∧ solve t = .error .unmatchedLeft) ∨
      (¬ t.clean.ClosesUnopened ∧ t.clean.count '(' = t.clean.count ')' ∧
        ∃ es, Postfix.ofTokens ts = .ok es ∧ solve t = es.value) := by
  obtain ⟨htext, hcut⟩ := Token.isCutAfter_of_ofText h
  have hlex := hcut.isLexeme
  have hsolve := solve_of_ofText h
  have hnone : Token.depth? 0 ts = none ↔ t.clean.ClosesUnopened := by
    rw [Token.depth?_eq_none_iff hlex, htext, overcloses_zero]
  have hsome : ∀ d, Token.depth? 0 ts = some d →
      ¬ t.clean.ClosesUnopened ∧ t.clean.count '(' = d + t.clean.count ')' := by
    intro d hd
    have hcount := Token.count_of_depth? hlex hd
    rw [htext, Nat.zero_add] at hcount
    refine ⟨fun hcl => ?_, hcount⟩
    rw [hnone.2 hcl] at hd
    simp at hd
  rcases Postfix.ofTokens_cases fun tok htok => (hlex tok htok).reads with
    ⟨hd, he⟩ | ⟨d, hd, he⟩ | ⟨hd, es, he⟩
  · rw [he] at hsolve
    exact Or.inl ⟨hnone.1 hd, hsolve⟩
  · rw [he] at hsolve
    obtain ⟨hcl, hcount⟩ := hsome (d + 1) hd
    refine Or.inr (Or.inl ⟨hcl, ?_, hsolve⟩)
    show t.clean.count ')' < t.clean.count '('
    omega
  · rw [he] at hsolve
    obtain ⟨hcl, hcount⟩ := hsome 0 hd
    rw [Nat.zero_add] at hcount
    exact Or.inr (Or.inr ⟨hcl, hcount, es, he, hsolve⟩)

/-- **Bracket errors are exact and come before all others.** A text that has tokens closes a bracket
    that is not open exactly if some beginning of it has more closing than opening brackets; else it
    leaves one open exactly if the whole of it has more opening brackets. In every other case there
    is a form, each number reads, and only operands, operators and zero divisors can be at fault. A
    text whose brackets do not match has no value, whatever else it holds. -/
theorem solve_eq_unmatched_iff {t : Text} {ts : List Token} (h : Token.ofText t = .ok ts) :
    (solve t = .error .unmatchedRight ↔ t.clean.ClosesUnopened) ∧
      (solve t = .error .unmatchedLeft ↔ ¬ t.clean.ClosesUnopened ∧ t.clean.LeavesOpen) ∧
      (¬ t.clean.ClosesUnopened → ¬ t.clean.LeavesOpen →
        (∃ es, Postfix.ofTokens ts = .ok es) ∧
          ((∃ x, solve t = .ok x) ∨ solve t = .error .divisionByZero ∨
            solve t = .error .invalidExpression)) ∧
      (∀ negative text, Token.number negative text ∈ ts →
        ∃ x : Double, Number.ofText? text = some x) ∧
      (t.clean.ClosesUnopened ∨ t.clean.count '(' ≠ t.clean.count ')' →
        ∀ x, solve t ≠ .ok x) := by
  have hreads : ∀ negative text, Token.number negative text ∈ ts →
      ∃ x : Double, Number.ofText? text = some x :=
    fun negative text htok => ((Token.isCutAfter_of_ofText h).2.isLexeme _ htok).reads rfl
  rcases solve_cases h with ⟨hcl, hs⟩ | ⟨hcl, hopen, hs⟩ | ⟨hcl, hcount, es, he, hs⟩
  · exact ⟨by simp [hs, hcl], by simp [hs, hcl], fun hn => absurd hcl hn, hreads,
      fun _ x => by simp [hs]⟩
  · exact ⟨by simp [hs, hcl], by simp [hs, hcl, hopen], fun _ hn => absurd hopen hn, hreads,
      fun _ x => by simp [hs]⟩
  · have hclosed : ¬ t.clean.LeavesOpen := by
      rw [LeavesOpen, hcount]
      exact Nat.lt_irrefl _
    have hvalue : (∃ x, solve t = .ok x) ∨ solve t = .error .divisionByZero ∨
        solve t = .error .invalidExpression := by
      rw [hs]
      cases hv : es.value with
      | ok x => exact Or.inl ⟨x, rfl⟩
      | error e => exact Or.inr ((Postfix.value_eq_error hv).imp (congrArg _) (congrArg _))
    refine ⟨iff_of_false ?_ hcl, iff_of_false ?_ fun hn => hclosed hn.2,
      fun _ _ => ⟨⟨es, he⟩, hvalue⟩, hreads, fun hn => ?_⟩
    · rcases hvalue with ⟨x, hv⟩ | hv | hv <;> simp [hv]
    · rcases hvalue with ⟨x, hv⟩ | hv | hv <;> simp [hv]
    · exact absurd hn (by simp [hcl, hcount])

/-- A division by zero, operators side by side and a bracket that is closed before it is opened: the
    bracket is what is reported, though there are as many of one kind as of the other. -/
theorem solve_eq_unmatched_iff_closed_first :
    ∃ ts, Token.ofText "1/0+*)(".toList = .ok ts ∧
      Text.ClosesUnopened "1/0+*)(".toList ∧
      solve "1/0+*)(".toList = .error .unmatchedRight ∧
      ∀ x, solve "1/0+*)(".toList ≠ .ok x := by
  have hclean : Text.clean "1/0+*)(".toList = "1/0+*)(".toList := by decide
  have hcl : Text.ClosesUnopened "1/0+*)(".toList := ⟨"1/0+*)".toList, by decide, by decide⟩
  cases ht : Token.ofText "1/0+*)(".toList with
  | error e =>
      have hsome : (Token.ofText "1/0+*)(".toList).toOption.isSome = true := by decide +kernel
      rw [ht] at hsome
      exact nomatch hsome
  | ok ts =>
      obtain ⟨hright, -, -, -, hnone⟩ := solve_eq_unmatched_iff ht
      rw [hclean] at hright hnone
      exact ⟨ts, rfl, hcl, hright.2 hcl, hnone (Or.inl hcl)⟩

end Expression

end Calculator

import Calculator.Expression.Written
import Calculator.Proofs.Expression.Grammar
import Calculator.Proofs.Postfix.Waiting
import Calculator.Proofs.Token.Cut

/-!
# What becomes of a written tree

The tokens that write a tree are the tokens of every text that they make up (`ofText_of_written`),
and their postfix form is the post-order of the tree (`ofTokens_written`). The second is an
induction on how the tree is written, on top of any stack that leaves the tree together
(`shiftAll_written`). Every expression of the grammar is written so: its chains of terms and of
factors are taken together from the left (`Derives.isChain`).
-/

namespace Calculator

/-! ## 1. Literals -/

/-- A literal's token reads as the literal's number. -/
theorem Literal.ofText?_text (l : Literal) : Number.ofText? l.text = some l.value := by
  have h : ∃ x : Double, Number.ofText? l.text = some x := by
    obtain ⟨hplain, hminus⟩ := l.isLiteral.exists_ofText? (f := .binary64)
    unfold Literal.text
    cases l.negative with
    | false => exact hplain
    | true => exact hminus
  obtain ⟨x, hx⟩ := h
  rw [Literal.value, hx]
  rfl

theorem Literal.isLexeme_token (l : Literal) : l.token.IsLexeme := by
  obtain ⟨negative, digits, hl⟩ := l
  cases negative with
  | false => exact hl
  | true => exact ⟨digits, hl, rfl⟩

/-! ## 2. The tokens -/

theorem Written.alternates {p : Nat} {e : Tree Literal} {ts : List Token}
    (h : Written p e ts) : Token.Alternates false ts := by
  induction h with
  | literal p l => exact ⟨rfl, rfl⟩
  | brackets _ ih => exact ⟨rfl, ih.append ⟨rfl, rfl⟩⟩
  | operation _ _ _ ihl ihr => exact ihl.append ⟨rfl, ihr⟩

theorem Written.isLexeme {p : Nat} {e : Tree Literal} {ts : List Token} (h : Written p e ts) :
    ∀ tok ∈ ts, tok.IsLexeme := by
  induction h with
  | literal p l =>
      intro tok htok
      rw [List.mem_singleton.1 htok]
      exact l.isLexeme_token
  | brackets _ ih =>
      intro tok htok
      rcases List.mem_append.1 htok with htok | htok
      · rcases List.mem_cons.1 htok with rfl | htok
        · trivial
        · exact ih tok htok
      · rw [List.mem_singleton.1 htok]
        trivial
  | operation _ _ _ ihl ihr =>
      intro tok htok
      rcases List.mem_append.1 htok with htok | htok
      · exact ihl tok htok
      · rcases List.mem_cons.1 htok with rfl | htok
        · trivial
        · exact ihr tok htok

/-- **Where operands and operators take turns every minus sign is in its place.** -/
theorem Token.Alternates.isCutAfter {b : Bool} {ts : List Token} (h : Alternates b ts)
    (hlex : ∀ tok ∈ ts, tok.IsLexeme) : IsCutAfter b ts := by
  induction ts generalizing b with
  | nil => trivial
  | cons tok ts ih =>
      obtain ⟨hstart, htail⟩ := h
      have ih := ih htail fun tok' htok => hlex tok' (List.mem_cons_of_mem _ htok)
      refine ⟨hlex tok (by simp), fun hneg => ?_, fun s hs hn => ?_, fun w htok _ => ?_, ih⟩
      · cases tok with
        | number negative text => simpa [startsOperand] using hstart
        | operator op => simp [isNegative] at hneg
        | leftBracket => simp [isNegative] at hneg
        | rightBracket => simp [isNegative] at hneg
      · -- behind a number no operand starts
        have hend := endsOperand_of_isNumber hn
        have hns := htail.head? s hs
        cases s with
        | number negative text => exact absurd ⟨hend, rfl⟩ hns
        | operator op => rfl
        | leftBracket => rfl
        | rightBracket => rfl
      · subst htok
        simpa [startsOperand] using hstart

/-- **The tokens that write a tree are those of the text that they make up.** -/
theorem ofText_of_written {p : Nat} {e : Tree Literal} {ts : List Token} (h : Written p e ts)
    {t : Text} (ht : t.clean = ts.flatMap Token.text) : Token.ofText t = .ok ts :=
  Token.ofText_of_isCutAfter ht.symm (h.alternates.isCutAfter h.isLexeme)

/-! ## 3. The postfix form -/

/-- **A written tree passes on its post-order but for the operators that still wait**, and these
    hold at least as closely as the place asks. -/
theorem shiftAll_written {p : Nat} {e : Tree Literal} {ts : List Token} (h : Written p e ts)
    {waiting : List Postfix.Waiting} (hw : Postfix.IsBelow p waiting) :
    ∃ out ops, Postfix.shiftAll waiting ts = .ok (out, Postfix.waitingFor ops ++ waiting) ∧
      out ++ Postfix.ofOperators ops = (e.map Literal.value).postOrder ∧
      ∀ op ∈ ops, p ≤ op.precedence := by
  induction h generalizing waiting with
  | literal p l =>
      refine ⟨[.number l.value], [], ?_, rfl, by simp⟩
      have hs : Postfix.shift waiting l.token = .ok ([.number l.value], waiting) := by
        rw [Literal.token, Postfix.shift, l.ofText?_text]
      rw [Postfix.shiftAll_cons_of_ok hs]
      rfl
  | brackets _ ih =>
      obtain ⟨out, ops, hts, hout, -⟩ := ih (Postfix.isBelow_leftBracket 0 waiting)
      refine ⟨out ++ Postfix.ofOperators ops, [], Postfix.shiftAll_brackets hts, ?_, by simp⟩
      rw [hout]
      exact List.append_nil _
  | @operation p op l r ls rs hp _ _ ihl ihr =>
      obtain ⟨outl, opsl, hls, houtl, hopsl⟩ := ihl (hw.mono hp)
      obtain ⟨outr, opsr, hrs, houtr, hopsr⟩ :=
        ihr (Postfix.isBelow_operator (Nat.lt_succ_self op.precedence) waiting)
      have hop : Postfix.shift (Postfix.waitingFor opsl ++ waiting) (.operator op) =
          .ok (Postfix.ofOperators opsl, .operator op :: waiting) := by
        rw [Postfix.shift, Postfix.release_waitingFor hopsl (hw.mono hp)]
      refine ⟨outl ++ (Postfix.ofOperators opsl ++ outr), opsr ++ [op], ?_, ?_, fun o ho => ?_⟩
      · rw [Postfix.shiftAll_append_of_ok hls, Postfix.shiftAll_cons_of_ok hop, hrs]
        simp [Except.map, Postfix.waitingFor]
      · show _ =
          (l.map Literal.value).postOrder ++ (r.map Literal.value).postOrder ++ [.operator op]
        rw [← houtl, ← houtr]
        simp [Postfix.ofOperators]
      · rcases List.mem_append.1 ho with ho | ho
        · exact Nat.le_trans hp (Nat.le_of_succ_le (hopsr o ho))
        · rw [List.mem_singleton.1 ho]
          exact hp

/-- **The postfix form of a written tree is its post-order.** -/
theorem ofTokens_written {e : Tree Literal} {ts : List Token} (h : Written 0 e ts) :
    Postfix.ofTokens ts = .ok (e.map Literal.value).postOrder := by
  obtain ⟨out, ops, hts, hout, -⟩ := shiftAll_written h (Postfix.isBelow_nil 0)
  rw [List.append_nil] at hts
  exact Postfix.ofTokens_eq_ok_iff.2 ⟨out, ops, hts, hout.symm⟩

/-! ## 4. Expressions of the grammar -/

/-- The precedence of the place where a phrase can stand. -/
def Phrase.precedence : Phrase → Nat
  | .expression => 1
  | .term => 2
  | .factor => 3

/-- The tokens are a chain of operators of a precedence: alone they write a tree at a place of that
    precedence, and so they do behind a left part and one more such operator. -/
structure IsChain (p : Nat) (ts : List Token) : Prop where
  written : ∃ e, Written p e ts
  continues : ∀ (op : Operator) (l : Tree Literal) (ls : List Token), op.precedence = p →
    Written p l ls → ∃ e, Written p e (ls ++ .operator op :: ts)

section

variable {p : Nat} {e : Tree Literal} {ts ts' : List Token}

/-- A right part is a chain of its own. -/
theorem Written.isChain (h : Written (p + 1) e ts) : IsChain p ts where
  written := ⟨e, h.mono (Nat.le_succ p)⟩
  continues op l ls hop hl := by
    subst hop
    exact ⟨.node op l e, .operation (Nat.le_refl _) hl h⟩

/-- What comes first in a chain joins the left part of what follows. -/
theorem IsChain.cons {op : Operator} (hop : op.precedence = p) (h : Written (p + 1) e ts)
    (h' : IsChain p ts') : IsChain p (ts ++ .operator op :: ts') where
  written := h'.continues op e ts hop (h.mono (Nat.le_succ p))
  continues op' l ls hop' hl := by
    obtain ⟨left, hleft⟩ := h.isChain.continues op' l ls hop' hl
    obtain ⟨whole, hwhole⟩ := h'.continues op left _ hop hleft
    rw [List.append_assoc, List.cons_append] at hwhole
    exact ⟨whole, hwhole⟩

/-- No operator is taken together at the place of a factor. -/
theorem Written.isChain_factor (h : Written Phrase.factor.precedence e ts) :
    IsChain Phrase.factor.precedence ts where
  written := ⟨e, h⟩
  continues op l ls hop := by
    cases op <;> exact absurd hop (by decide)

end

theorem Token.IsLexeme.exists_literal {negative : Bool} {t : Text}
    (h : (Token.number negative t).IsLexeme) :
    ∃ l : Literal, Token.number negative t = l.token := by
  cases negative with
  | false => exact ⟨⟨false, t, h⟩, rfl⟩
  | true =>
      obtain ⟨w, hw, rfl⟩ := h
      exact ⟨⟨true, w, hw⟩, rfl⟩

/-- **Every phrase of the grammar is a chain at its place**, and so writes a tree there. -/
theorem Derives.isChain {k : Phrase} {ts : List Token} (h : Derives k ts)
    (hlex : ∀ tok ∈ ts, tok.IsLexeme) : IsChain k.precedence ts := by
  induction h with
  | expression _ ih =>
      obtain ⟨e, he⟩ := (ih hlex).written
      exact he.isChain
  | @sum op ts ts' hop _ _ ih ih' =>
      obtain ⟨hts, hts'⟩ := List.forall_mem_append.1 hlex
      obtain ⟨e, he⟩ := (ih hts).written
      have hprecedence : op.precedence = Phrase.expression.precedence := by
        rcases hop with rfl | rfl <;> rfl
      exact .cons hprecedence he (ih' (List.forall_mem_cons.1 hts').2)
  | term _ ih =>
      obtain ⟨e, he⟩ := (ih hlex).written
      exact he.isChain
  | @product op ts ts' hop _ _ ih ih' =>
      obtain ⟨hts, hts'⟩ := List.forall_mem_append.1 hlex
      obtain ⟨e, he⟩ := (ih hts).written
      have hprecedence : op.precedence = Phrase.term.precedence := by
        rcases hop with rfl | rfl <;> rfl
      exact .cons hprecedence he (ih' (List.forall_mem_cons.1 hts').2)
  | number negative text =>
      obtain ⟨l, hl⟩ := (hlex _ List.mem_cons_self).exists_literal
      rw [hl]
      exact (Written.literal _ l).isChain_factor
  | brackets _ ih =>
      obtain ⟨hts, -⟩ := List.forall_mem_append.1 hlex
      obtain ⟨e, he⟩ := (ih (List.forall_mem_cons.1 hts).2).written
      have hbrackets := Written.brackets (p := Phrase.factor.precedence) (he.mono (Nat.zero_le _))
      exact hbrackets.isChain_factor

end Calculator

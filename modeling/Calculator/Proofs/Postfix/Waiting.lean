import Calculator.Postfix.Contents

/-!
# What leaves the stack of a conversion

Three steps take operators off the stack. Each takes those on top that it is for, in their order,
and leaves what is below as it was:

* `release_waitingFor` -- an operator takes those that hold at least as closely;
* `close_eq_ok_iff` -- a closing bracket takes those above its opening bracket, and the bracket;
* `flush_eq_ok_iff` -- the end takes all, and there is no bracket among them.

`shift_eq_ok_iff` says with them all that a single token can do, `shiftAll_cons_eq_ok_iff` and
`ofTokens_eq_ok_iff` what a list of tokens does.
-/

namespace Calculator

namespace Postfix

/-! ## 1. The three steps -/

/-- On top of the stack no operator holds as closely as `p`. -/
def IsBelow (p : Nat) (waiting : List Waiting) : Prop :=
  ∀ op, waiting.head? = some (.operator op) → op.precedence < p

theorem isBelow_nil (p : Nat) : IsBelow p [] := by
  simp [IsBelow]

theorem isBelow_leftBracket (p : Nat) (waiting : List Waiting) :
    IsBelow p (.leftBracket :: waiting) := by
  simp [IsBelow]

theorem isBelow_operator {p : Nat} {op : Operator} (h : op.precedence < p)
    (waiting : List Waiting) : IsBelow p (.operator op :: waiting) := by
  intro op' hop
  obtain rfl : op = op' := by simpa using hop
  exact h

theorem IsBelow.mono {p q : Nat} {waiting : List Waiting} (h : IsBelow p waiting) (hpq : p ≤ q) :
    IsBelow q waiting :=
  fun op hop => Nat.lt_of_lt_of_le (h op hop) hpq

theorem release_of_isBelow {op : Operator} {waiting : List Waiting}
    (h : IsBelow op.precedence waiting) : release op waiting = ([], waiting) := by
  cases waiting with
  | nil => rfl
  | cons top rest =>
      cases top with
      | leftBracket => rfl
      | operator top =>
          have hlt := h top rfl
          rw [release, if_neg (Nat.not_le.2 hlt)]

/-- **An operator releases the operators on top that hold at least as closely.** -/
theorem release_waitingFor {op : Operator} {ops : List Operator} {rest : List Waiting}
    (hops : ∀ o ∈ ops, op.precedence ≤ o.precedence) (hrest : IsBelow op.precedence rest) :
    release op (waitingFor ops ++ rest) = (ofOperators ops, rest) := by
  induction ops with
  | nil => exact release_of_isBelow hrest
  | cons o ops ih =>
      have ho := hops o (by simp)
      have ih := ih fun o' ho' => hops o' (by simp [ho'])
      show release op (.operator o :: (waitingFor ops ++ rest)) = _
      rw [release, if_pos ho, ih]
      rfl

/-- Every stack is made of what an operator releases and of what still waits. -/
theorem exists_release (op : Operator) (waiting : List Waiting) :
    ∃ ops rest, waiting = waitingFor ops ++ rest ∧
      (∀ o ∈ ops, op.precedence ≤ o.precedence) ∧ IsBelow op.precedence rest := by
  induction waiting with
  | nil => exact ⟨[], [], rfl, by simp, isBelow_nil _⟩
  | cons top waiting ih =>
      cases top with
      | leftBracket => exact ⟨[], _, rfl, by simp, isBelow_leftBracket _ _⟩
      | operator top =>
          by_cases h : op.precedence ≤ top.precedence
          · obtain ⟨ops, rest, rfl, hops, hrest⟩ := ih
            refine ⟨top :: ops, rest, rfl, fun o ho => ?_, hrest⟩
            rcases List.mem_cons.1 ho with rfl | ho
            · exact h
            · exact hops o ho
          · exact ⟨[], _, rfl, by simp, isBelow_operator (Nat.not_le.1 h) _⟩

/-- **A closing bracket releases what waits above its opening bracket.** -/
theorem close_eq_ok_iff {waiting rest : List Waiting} {out : Postfix} :
    close waiting = .ok (out, rest) ↔
      ∃ ops, out = ofOperators ops ∧ waiting = waitingFor ops ++ .leftBracket :: rest := by
  constructor
  · intro h
    induction waiting generalizing out with
    | nil => simp [close] at h
    | cons top waiting ih =>
        cases top with
        | leftBracket =>
            obtain ⟨rfl, rfl⟩ := Prod.mk.inj (Except.ok.inj h)
            exact ⟨[], rfl, rfl⟩
        | operator top =>
            rw [close] at h
            obtain ⟨⟨out', rest'⟩, hc, heq⟩ := map_eq_ok_iff.1 h
            obtain ⟨rfl, rfl⟩ := Prod.mk.inj heq
            obtain ⟨ops, rfl, rfl⟩ := ih hc
            exact ⟨top :: ops, rfl, rfl⟩
  · rintro ⟨ops, rfl, rfl⟩
    induction ops with
    | nil => rfl
    | cons o ops ih =>
        show close (.operator o :: (waitingFor ops ++ .leftBracket :: rest)) = _
        rw [close, ih]
        rfl

/-- **The end releases all, where no bracket waits.** -/
theorem flush_eq_ok_iff {waiting : List Waiting} {out : Postfix} :
    flush waiting = .ok out ↔ ∃ ops, out = ofOperators ops ∧ waiting = waitingFor ops := by
  constructor
  · intro h
    induction waiting generalizing out with
    | nil =>
        obtain rfl := Except.ok.inj h
        exact ⟨[], rfl, rfl⟩
    | cons top waiting ih =>
        cases top with
        | leftBracket => simp [flush] at h
        | operator top =>
            rw [flush] at h
            obtain ⟨out', hf, rfl⟩ := map_eq_ok_iff.1 h
            obtain ⟨ops, rfl, rfl⟩ := ih hf
            exact ⟨top :: ops, rfl, rfl⟩
  · rintro ⟨ops, rfl, rfl⟩
    induction ops with
    | nil => rfl
    | cons o ops ih =>
        show flush (.operator o :: waitingFor ops) = _
        rw [flush, ih]
        rfl

/-- **What a token does**: a number passes, an operator takes the place of those that it releases,
    an opening bracket waits, and a closing one releases what waits above its opening bracket. -/
theorem shift_eq_ok_iff {waiting waiting' : List Waiting} {tok : Token} {out : Postfix} :
    shift waiting tok = .ok (out, waiting') ↔
      (∃ negative text x, tok = .number negative text ∧ Number.ofText? text = some x ∧
        out = [.number x] ∧ waiting' = waiting) ∨
      (∃ op ops rest, tok = .operator op ∧ waiting = waitingFor ops ++ rest ∧
        (∀ o ∈ ops, op.precedence ≤ o.precedence) ∧ IsBelow op.precedence rest ∧
        out = ofOperators ops ∧ waiting' = .operator op :: rest) ∨
      (tok = .leftBracket ∧ out = [] ∧ waiting' = .leftBracket :: waiting) ∨
      (∃ ops, tok = .rightBracket ∧ waiting = waitingFor ops ++ .leftBracket :: waiting' ∧
        out = ofOperators ops) := by
  constructor
  · intro h
    cases tok with
    | number negative text =>
        rw [shift] at h
        cases hx : (Number.ofText? text : Option Double) with
        | none => rw [hx] at h; simp at h
        | some x =>
            rw [hx] at h
            obtain ⟨rfl, rfl⟩ := Prod.mk.inj (Except.ok.inj h)
            exact Or.inl ⟨negative, text, x, rfl, hx, rfl, rfl⟩
    | operator op =>
        obtain ⟨ops, rest, rfl, hops, hrest⟩ := exists_release op waiting
        rw [shift, release_waitingFor hops hrest] at h
        obtain ⟨rfl, rfl⟩ := Prod.mk.inj (Except.ok.inj h)
        exact Or.inr (Or.inl ⟨op, ops, rest, rfl, rfl, hops, hrest, rfl, rfl⟩)
    | leftBracket =>
        obtain ⟨rfl, rfl⟩ := Prod.mk.inj (Except.ok.inj h)
        exact Or.inr (Or.inr (Or.inl ⟨rfl, rfl, rfl⟩))
    | rightBracket =>
        obtain ⟨ops, rfl, rfl⟩ := close_eq_ok_iff.1 h
        exact Or.inr (Or.inr (Or.inr ⟨ops, rfl, rfl, rfl⟩))
  · rintro (⟨negative, text, x, rfl, hx, rfl, rfl⟩ |
      ⟨op, ops, rest, rfl, rfl, hops, hrest, rfl, rfl⟩ | ⟨rfl, rfl, rfl⟩ | ⟨ops, rfl, rfl, rfl⟩)
    · rw [shift, hx]
    · rw [shift, release_waitingFor hops hrest]
    · rfl
    · exact close_eq_ok_iff.2 ⟨ops, rfl, rfl⟩

/-! ## 2. Tokens one after the other -/

/-- The first token goes on to the others. -/
theorem shiftAll_cons_eq_ok_iff {waiting waiting'' : List Waiting} {tok : Token} {ts : List Token}
    {out : Postfix} :
    shiftAll waiting (tok :: ts) = .ok (out, waiting'') ↔
      ∃ first waiting' others, shift waiting tok = .ok (first, waiting') ∧
        shiftAll waiting' ts = .ok (others, waiting'') ∧ out = first ++ others := by
  rw [shiftAll]
  constructor
  · intro h
    cases hs : shift waiting tok with
    | error e => rw [hs] at h; simp at h
    | ok r =>
        obtain ⟨first, waiting'⟩ := r
        rw [hs] at h
        obtain ⟨⟨others, rest⟩, hr, heq⟩ := map_eq_ok_iff.1 h
        obtain ⟨rfl, rfl⟩ := Prod.mk.inj heq
        exact ⟨first, waiting', others, rfl, hr, rfl⟩
  · rintro ⟨first, waiting', others, hs, hr, rfl⟩
    simp only [hs, hr]
    rfl

theorem shiftAll_append_of_ok {waiting waiting' : List Waiting} {ts : List Token} {out : Postfix}
    (h : shiftAll waiting ts = .ok (out, waiting')) (ts' : List Token) :
    shiftAll waiting (ts ++ ts') =
      (shiftAll waiting' ts').map fun (out', waiting'') => (out ++ out', waiting'') := by
  rw [shiftAll_append, h]

theorem shiftAll_cons_of_ok {waiting waiting' : List Waiting} {tok : Token} {out : Postfix}
    (h : shift waiting tok = .ok (out, waiting')) (ts : List Token) :
    shiftAll waiting (tok :: ts) =
      (shiftAll waiting' ts).map fun (out', waiting'') => (out ++ out', waiting'') := by
  rw [shiftAll, h]

theorem shiftAll_leftBracket (waiting : List Waiting) (ts : List Token) :
    shiftAll waiting (.leftBracket :: ts) = shiftAll (.leftBracket :: waiting) ts := by
  rw [shiftAll_cons_of_ok rfl]
  cases shiftAll (.leftBracket :: waiting) ts <;> rfl

theorem shiftAll_rightBracket (ops : List Operator) (waiting : List Waiting) :
    shiftAll (waitingFor ops ++ .leftBracket :: waiting) [.rightBracket] =
      .ok (ofOperators ops, waiting) := by
  have hc : shift (waitingFor ops ++ .leftBracket :: waiting) .rightBracket =
      .ok (ofOperators ops, waiting) :=
    close_eq_ok_iff.2 ⟨ops, rfl, rfl⟩
  rw [shiftAll_cons_of_ok hc, shiftAll]
  show Except.ok (ofOperators ops ++ [], waiting) = _
  rw [List.append_nil]

/-- **Brackets release at their end what their tokens left waiting.** -/
theorem shiftAll_brackets {waiting : List Waiting} {ts : List Token} {out : Postfix}
    {ops : List Operator}
    (h : shiftAll (.leftBracket :: waiting) ts =
      .ok (out, waitingFor ops ++ .leftBracket :: waiting)) :
    shiftAll waiting (.leftBracket :: ts ++ [.rightBracket]) =
      .ok (out ++ ofOperators ops, waiting) := by
  rw [List.cons_append, shiftAll_leftBracket, shiftAll_append_of_ok h, shiftAll_rightBracket]
  rfl

/-- Tokens have a form if only operators wait in the end. -/
theorem ofTokens_eq_ok_iff {ts : List Token} {es : Postfix} :
    ofTokens ts = .ok es ↔
      ∃ out ops, shiftAll [] ts = .ok (out, waitingFor ops) ∧ es = out ++ ofOperators ops := by
  rw [ofTokens]
  constructor
  · intro h
    cases hs : shiftAll [] ts with
    | error e => rw [hs] at h; simp at h
    | ok r =>
        obtain ⟨out, waiting⟩ := r
        rw [hs] at h
        obtain ⟨out', hf, rfl⟩ := map_eq_ok_iff.1 h
        obtain ⟨ops, rfl, rfl⟩ := flush_eq_ok_iff.1 hf
        exact ⟨out, ops, rfl, rfl⟩
  · rintro ⟨out, ops, hs, rfl⟩
    have hf := flush_eq_ok_iff.2 ⟨ops, rfl, rfl⟩
    simp only [hs, hf]
    rfl

end Postfix

end Calculator

import Calculator.Postfix.Arrangement
import Calculator.Proofs.Postfix.Conservation

/-!
# The order of the elements

A conversion passes on a number at once and holds an operator back, so an element can fall behind
and never gets ahead. `Passes` says so with the places of the tokens, for what is passed on and what
is held back: each token keeps it (`exists_passes_shift`), and so does each list of tokens
(`exists_passes_shiftAll`). Main statement: `ofTokens_keeps`, a form holds the numbers of its tokens
in their order and their operators, each behind all numbers that it followed.
-/

namespace Calculator

namespace Postfix

/-! ## 1. Operators with their places -/

/-- The operators that wait, each with a place before `n`. -/
structure IsHeld (n : Nat) (waiting : List Waiting) (held : List Placed) : Prop where
  operators : held.map Prod.fst = (waitingOperators waiting).map Token.operator
  before : ∀ p ∈ held, p.2 < n

theorem isHeld_nil (n : Nat) : IsHeld n [] [] where
  operators := rfl
  before := by simp

/-- What is held stays held, whatever brackets wait. -/
theorem IsHeld.later {n : Nat} {waiting waiting' : List Waiting} {held : List Placed}
    (h : IsHeld n waiting held) (hwaiting : waitingOperators waiting' = waitingOperators waiting) :
    IsHeld (n + 1) waiting' held where
  operators := by rw [h.operators, hwaiting]
  before := fun p hp => Nat.lt_succ_of_lt (h.before p hp)

theorem not_isNumber_of_map_fst {held : List Placed} {ops : List Operator}
    (h : held.map Prod.fst = ops.map Token.operator) : ∀ p ∈ held, p.1.isNumber = false := by
  intro p hp
  have hmem : p.1 ∈ held.map Prod.fst := List.mem_map_of_mem hp
  rw [h] at hmem
  obtain ⟨op, -, hop⟩ := List.mem_map.1 hmem
  rw [← hop]
  rfl

theorem map_element?_of_map_fst {held : List Placed} {ops : List Operator}
    (h : held.map Prod.fst = ops.map Token.operator) :
    (held.map fun p => p.1.element?) = (ofOperators ops).map some := by
  have hcomp : (held.map fun p => p.1.element?) = (held.map Prod.fst).map Token.element? := by
    rw [List.map_map]
    rfl
  rw [hcomp, h, ofOperators, List.map_map, List.map_map]
  rfl

theorem pairwise_precedes_of_map_fst {held : List Placed} {ops : List Operator}
    (h : held.map Prod.fst = ops.map Token.operator) : held.Pairwise Placed.Precedes := by
  refine List.pairwise_of_forall_mem_list fun a _ b hb hn => ?_
  rw [not_isNumber_of_map_fst h b hb] at hn
  exact nomatch hn

/-- Operators on top of the stack are those held first. -/
theorem IsHeld.split {n : Nat} {ops : List Operator} {rest : List Waiting} {held : List Placed}
    (h : IsHeld n (waitingFor ops ++ rest) held) :
    ∃ top below, held = top ++ below ∧ top.map Prod.fst = ops.map Token.operator ∧
      IsHeld n rest below := by
  have hmap := h.operators
  rw [waitingOperators_append, waitingOperators_waitingFor, List.map_append] at hmap
  obtain ⟨top, below, rfl, htop, hbelow⟩ := List.map_eq_append_iff.1 hmap
  exact ⟨top, below, rfl, htop, hbelow, fun p hp => h.before p (List.mem_append_right _ hp)⟩

/-! ## 2. The law -/

/-- Of the operators held and the tokens met, `order` is passed on as the elements `out` and `held'`
    is held back. -/
structure Passes (held met : List Placed) (out : Postfix) (order held' : List Placed) : Prop where
  elements : (order.map fun p => p.1.element?) = out.map some
  perm : (order ++ held').Perm (held ++ met)
  precedes : order.Pairwise Placed.Precedes

theorem Passes.nil (held : List Placed) : Passes held [] [] [] held where
  elements := rfl
  perm := by
    rw [List.append_nil]
    exact List.Perm.refl held
  precedes := List.Pairwise.nil

/-- What is passed on later is held before, or met later. -/
theorem Passes.append {held met met' order order' held' held'' : List Placed} {out out' : Postfix}
    (h : Passes held met out order held') (h' : Passes held' met' out' order' held'')
    (hheld : ∀ p ∈ held', p.1.isNumber = false)
    (hmet : ∀ a ∈ held ++ met, ∀ b ∈ met', a.2 < b.2) :
    Passes held (met ++ met') (out ++ out') (order ++ order') held'' where
  elements := by
    rw [List.map_append, List.map_append, h.elements, h'.elements]
  perm := by
    have hfirst := h.perm.append_right met'
    have hsecond := h'.perm.append_left order
    rw [← List.append_assoc, ← List.append_assoc] at hsecond
    rw [← List.append_assoc]
    exact hsecond.trans hfirst
  precedes := by
    refine List.pairwise_append.2 ⟨h.precedes, h'.precedes, fun a ha b hb hn => ?_⟩
    have ha' : a ∈ held ++ met := h.perm.mem_iff.1 (List.mem_append_left _ ha)
    rcases List.mem_append.1 (h'.perm.mem_iff.1 (List.mem_append_left _ hb)) with hb' | hb'
    · rw [hheld b hb'] at hn
      exact nomatch hn
    · exact hmet a ha' b hb'

/-- **What one token passes on and holds back.** -/
theorem exists_passes_shift {n : Nat} {waiting waiting' : List Waiting} {tok : Token}
    {out : Postfix} {held : List Placed} (h : shift waiting tok = .ok (out, waiting'))
    (hheld : IsHeld n waiting held) :
    ∃ order held', Passes held (Token.placed n [tok]) out order held' ∧
      IsHeld (n + 1) waiting' held' := by
  rcases shift_eq_ok_iff.1 h with ⟨negative, text, x, rfl, hx, rfl, rfl⟩ |
    ⟨op, ops, rest, rfl, rfl, -, -, rfl, rfl⟩ | ⟨rfl, rfl, rfl⟩ | ⟨ops, rfl, rfl, rfl⟩
  · refine ⟨[(.number negative text, n)], held, ⟨?_, ?_, List.pairwise_singleton _ _⟩,
      hheld.later rfl⟩
    · show [(Number.ofText? text).map Element.number] = [some (.number x)]
      rw [hx]
      rfl
    · exact List.perm_append_comm
  · obtain ⟨top, below, rfl, htop, hbelow⟩ := hheld.split
    refine ⟨top, (.operator op, n) :: below,
      ⟨map_element?_of_map_fst htop, ?_, pairwise_precedes_of_map_fst htop⟩, ?_, ?_⟩
    · rw [List.append_assoc]
      exact (List.perm_append_singleton _ below).symm.append_left top
    · exact congrArg (Token.operator op :: ·) hbelow.operators
    · intro p hp
      rcases List.mem_cons.1 hp with rfl | hp
      · exact Nat.lt_succ_self n
      · exact (hbelow.later rfl).before p hp
  · refine ⟨[], held, ⟨rfl, ?_, List.Pairwise.nil⟩,
      hheld.later (waitingOperators_leftBracket waiting)⟩
    show held.Perm (held ++ [])
    rw [List.append_nil]
  · obtain ⟨top, below, rfl, htop, hbelow⟩ := hheld.split
    refine ⟨top, below, ⟨map_element?_of_map_fst htop, ?_, pairwise_precedes_of_map_fst htop⟩,
      hbelow.later (waitingOperators_leftBracket waiting').symm⟩
    show (top ++ below).Perm (top ++ below ++ [])
    rw [List.append_nil]

theorem placed_cons (n : Nat) (tok : Token) (ts : List Token) :
    Token.placed n (tok :: ts) = Token.placed n [tok] ++ Token.placed (n + 1) ts := by
  unfold Token.placed
  rw [← List.filter_append]
  rfl

theorem le_of_mem_placed {n : Nat} {ts : List Token} {p : Placed} (h : p ∈ Token.placed n ts) :
    n ≤ p.2 :=
  List.le_snd_of_mem_zipIdx (List.mem_filter.1 h).1

/-- **What a list of tokens passes on and holds back.** -/
theorem exists_passes_shiftAll {n : Nat} {waiting waiting' : List Waiting} {ts : List Token}
    {out : Postfix} {held : List Placed} (h : shiftAll waiting ts = .ok (out, waiting'))
    (hheld : IsHeld n waiting held) :
    ∃ order held', Passes held (Token.placed n ts) out order held' ∧
      IsHeld (n + ts.length) waiting' held' := by
  induction ts generalizing n waiting out held with
  | nil =>
      obtain ⟨rfl, rfl⟩ := Prod.mk.inj (Except.ok.inj h)
      exact ⟨[], held, Passes.nil held, hheld⟩
  | cons tok ts ih =>
      obtain ⟨first, waiting₁, others, hs, hr, rfl⟩ := shiftAll_cons_eq_ok_iff.1 h
      obtain ⟨order, held₁, hpasses, hheld₁⟩ := exists_passes_shift hs hheld
      obtain ⟨order', held', hpasses', hheld'⟩ := ih hr hheld₁
      have hmet : ∀ a ∈ held ++ Token.placed n [tok], ∀ b ∈ Token.placed (n + 1) ts, a.2 < b.2 := by
        intro a ha b hb
        have hb := le_of_mem_placed hb
        rcases List.mem_append.1 ha with ha | ha
        · have ha := hheld.before a ha
          omega
        · obtain rfl : a = (tok, n) := List.mem_singleton.1 (List.mem_filter.1 ha).1
          exact hb
      refine ⟨order ++ order', held', ?_, ?_⟩
      · rw [placed_cons]
        exact hpasses.append hpasses' (not_isNumber_of_map_fst hheld₁.operators) hmet
      · rw [List.length_cons, Nat.add_comm ts.length 1, ← Nat.add_assoc]
        exact hheld'

/-! ## 3. The form -/

/-- **Every form is arranged**: no element gets ahead of a number. -/
theorem exists_isArrangement {ts : List Token} {es : Postfix} (h : ofTokens ts = .ok es) :
    ∃ order, IsArrangement ts es order := by
  obtain ⟨out, ops, hs, rfl⟩ := ofTokens_eq_ok_iff.1 h
  obtain ⟨order, held, hpasses, hheld⟩ := exists_passes_shiftAll hs (isHeld_nil 0)
  have hops : held.map Prod.fst = ops.map Token.operator := by
    rw [hheld.operators, waitingOperators_waitingFor]
  refine ⟨order ++ held, hpasses.perm, ?_, ?_⟩
  · rw [List.map_append, List.map_append, hpasses.elements, map_element?_of_map_fst hops]
  · refine List.pairwise_append.2
      ⟨hpasses.precedes, pairwise_precedes_of_map_fst hops, fun a _ b hb hn => ?_⟩
    rw [not_isNumber_of_map_fst hops b hb] at hn
    exact nomatch hn

/-- In an arrangement an operator stands behind every number that has its place before it. -/
theorem IsArrangement.mem_before {ts : List Token} {es : Postfix} {order : List Placed}
    (h : IsArrangement ts es order) {before after : List Placed} {p q : Placed}
    (horder : order = before ++ p :: after) (hq : q ∈ ts.zipIdx) (hn : q.1.isNumber = true)
    (hlt : q.2 < p.2) : q ∈ before := by
  have hbracket : q.1.isBracket = false := by
    obtain ⟨tok, place⟩ := q
    cases tok with
    | number negative text => rfl
    | operator op => rfl
    | leftBracket => exact nomatch hn
    | rightBracket => exact nomatch hn
  have hmem : q ∈ order := h.perm.mem_iff.2 (List.mem_filter.2 ⟨hq, by simp [hbracket]⟩)
  have hprecedes := h.precedes
  rw [horder] at hmem hprecedes
  rcases List.mem_append.1 hmem with hbefore | hrest
  · exact hbefore
  · rcases List.mem_cons.1 hrest with rfl | hafter
    · exact absurd hlt (Nat.lt_irrefl _)
    · have hcons := (List.pairwise_append.1 hprecedes).2.1
      have hgt : p.2 < q.2 := (List.pairwise_cons.1 hcons).1 q hafter hn
      omega

/-- **A conversion loses and invents nothing**: a form holds the numbers of its tokens in their
    order, their operators, and as many elements as there are tokens that are no brackets. **And it
    reorders nothing that it should not**: its elements can be given the places of their tokens so
    that each operator stands behind all numbers that have their places before it. -/
theorem ofTokens_keeps {ts : List Token} {es : Postfix} (h : ofTokens ts = .ok es) :
    (numbers es).map some = (Token.numbers ts).map Token.value? ∧
      (operators es).Perm (Token.operators ts) ∧
      es.length = (ts.filter fun tok => !tok.isBracket).length ∧
      ∃ order, IsArrangement ts es order ∧
        ∀ before op place after, order = before ++ (.operator op, place) :: after →
          ∀ number ∈ ts.zipIdx, number.1.isNumber = true → number.2 < place → number ∈ before := by
  obtain ⟨hnumbers, hoperators, -⟩ := conserves_ofTokens h
  obtain ⟨order, horder⟩ := exists_isArrangement h
  refine ⟨hnumbers, hoperators, ?_, order, horder,
    fun before op place after heq number hmem hn hlt => horder.mem_before heq hmem hn hlt⟩
  have hlength := length_ofTokens h
  have hparts := List.length_eq_countP_add_countP Token.isBracket (l := ts)
  have hfilter : (ts.filter fun tok => !tok.isBracket).length =
      ts.countP fun tok => decide ¬ (tok.isBracket = true) := by
    rw [List.countP_eq_length_filter]
    simp
  omega

/-- An operator in front, which waits for all that follows it, and numbers side by side: no
    expression, and still each token has its element. -/
theorem ofTokens_keeps_operator_first :
    let ts : List Token := [.operator .multiplication, .leftBracket, .number false ['1'],
      .operator .addition, .number true ['-', '2'], .rightBracket, .number false ['3']]
    ∃ es, ofTokens ts = .ok es ∧
      (numbers es).map some = (Token.numbers ts).map Token.value? ∧
      (operators es).Perm [.multiplication, .addition] ∧ es.length = 5 ∧
      ∃ order, IsArrangement ts es order := by
  intro ts
  cases h : ofTokens ts with
  | error e =>
      have hsome : (ofTokens ts).toOption.isSome = true := by decide +kernel
      rw [h] at hsome
      exact nomatch hsome
  | ok es =>
      obtain ⟨hnumbers, hoperators, hlength, order, horder, -⟩ := ofTokens_keeps h
      exact ⟨es, rfl, hnumbers, hoperators, hlength, order, horder⟩

end Postfix

end Calculator

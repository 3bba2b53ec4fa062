import Calculator.Proofs.Postfix.Conservation

/-!
# The stack of a conversion

What waits during a conversion is graded: right above an operator stands a bracket or an operator
that holds more closely (`IsGraded`). Each token keeps this (`isGraded_shift`), so do tokens one
behind the other (`isGraded_shiftAll`), and each graded stack comes about
(`exists_shiftAll_iff_isGraded`). Two precedences leave room for two operators at each level of
brackets, which bounds the stack (`IsGraded.length_lt`); the bound is reached at every depth
(`exists_shiftAll_length_eq`). Main statement: `waiting_levels`, what waits after each token of a
list.
-/

namespace Calculator

theorem Operator.precedence_pos (op : Operator) : 0 < op.precedence := by
  cases op <;> decide

theorem Operator.precedence_lt_three (op : Operator) : op.precedence < 3 := by
  cases op <;> decide

namespace Postfix

open Token (depth?)

/-! ## 1. Graded stacks -/

/-- On each level of brackets the operators that wait hold the more closely the higher they are. -/
inductive IsGraded : List Waiting → Prop where
  | nil : IsGraded []
  | leftBracket {waiting : List Waiting} (h : IsGraded waiting) : IsGraded (.leftBracket :: waiting)
  | operator {op : Operator} {waiting : List Waiting} (h : IsGraded waiting)
      (hop : IsBelow op.precedence waiting) : IsGraded (.operator op :: waiting)

variable {above below waiting waiting' : List Waiting}

/-- What lies under the top of a graded stack is graded. -/
theorem IsGraded.drop (h : IsGraded (above ++ below)) : IsGraded below := by
  induction above with
  | nil => exact h
  | cons top above ih =>
      cases h with
      | leftBracket h => exact ih h
      | operator h hop => exact ih h

theorem IsBelow.take {p : Nat} (h : IsBelow p (above ++ below)) : IsBelow p above := by
  cases above with
  | nil => exact isBelow_nil p
  | cons top above => exact h

/-- The upper part of a graded stack is graded. -/
theorem IsGraded.take (h : IsGraded (above ++ below)) : IsGraded above := by
  induction above with
  | nil => exact .nil
  | cons top above ih =>
      cases h with
      | leftBracket h => exact .leftBracket (ih h)
      | operator h hop => exact .operator (ih h) hop.take

/-- Where no bracket waits between them, a higher operator holds more closely than a lower one. -/
theorem IsGraded.pairwise {ops : List Operator} (h : IsGraded (waitingFor ops)) :
    ops.Pairwise fun upper lower => lower.precedence < upper.precedence := by
  induction ops with
  | nil => exact List.Pairwise.nil
  | cons op ops ih =>
      cases h with
      | operator h hop =>
          have hops := ih h
          refine List.pairwise_cons.2 ⟨fun lower hlower => ?_, hops⟩
          cases ops with
          | nil => exact absurd hlower List.not_mem_nil
          | cons next ops =>
              have hnext : next.precedence < op.precedence := hop next rfl
              rcases List.mem_cons.1 hlower with heq | hlower
              · rw [heq]
                exact hnext
              · exact Nat.lt_trans ((List.pairwise_cons.1 hops).1 lower hlower) hnext

theorem isBelow_three (waiting : List Waiting) : IsBelow 3 waiting :=
  fun op _ => op.precedence_lt_three

/-- **A graded stack is short.** The precedences below `p` bound the operators at the topmost level,
    and all precedences those at each level under a bracket. -/
theorem IsGraded.length_lt {p : Nat} (h : IsGraded waiting) (hp : 0 < p)
    (hbelow : IsBelow p waiting) : waiting.length < 3 * openBrackets waiting + p := by
  induction h generalizing p with
  | nil => simpa [openBrackets] using hp
  | @leftBracket waiting h ih =>
      -- under a bracket any precedence may stand on top
      have hlength := ih (Nat.succ_pos 2) (isBelow_three waiting)
      rw [List.length_cons, openBrackets_leftBracket]
      omega
  | @operator op waiting h hop ih =>
      have hlength := ih op.precedence_pos hop
      have hlt : op.precedence < p := hbelow op rfl
      rw [List.length_cons, openBrackets_operator]
      omega

theorem IsGraded.length_le (h : IsGraded waiting) :
    waiting.length ≤ 3 * openBrackets waiting + 2 :=
  Nat.le_of_lt_succ (h.length_lt (Nat.succ_pos 2) (isBelow_three waiting))

/-! ## 2. What tokens keep -/

/-- **Each token keeps the stack graded.** -/
theorem isGraded_shift {tok : Token} {out : Postfix} (h : IsGraded waiting)
    (hs : shift waiting tok = .ok (out, waiting')) : IsGraded waiting' := by
  rcases shift_eq_ok_iff.1 hs with ⟨-, -, -, -, -, -, heq⟩ |
    ⟨op, ops, rest, -, heq, -, hrest, -, heq'⟩ | ⟨-, -, heq⟩ | ⟨ops, -, heq, -⟩
  · rw [heq]
    exact h
  · -- what the operator releases stood on `rest`, and it comes to stand there itself
    rw [heq] at h
    rw [heq']
    exact .operator h.drop hrest
  · rw [heq]
    exact .leftBracket h
  · rw [heq] at h
    cases h.drop with
    | leftBracket hbelow => exact hbelow

/-- **Tokens keep the stack graded.** -/
theorem isGraded_shiftAll {ts : List Token} {out : Postfix} (h : IsGraded waiting)
    (hs : shiftAll waiting ts = .ok (out, waiting')) : IsGraded waiting' := by
  induction ts generalizing waiting out with
  | nil =>
      obtain ⟨-, heq⟩ := Prod.mk.inj (Except.ok.inj hs)
      rw [← heq]
      exact h
  | cons tok ts ih =>
      obtain ⟨first, waiting₁, others, htok, hts, -⟩ := shiftAll_cons_eq_ok_iff.1 hs
      exact ih (isGraded_shift h htok) hts

/-- One more token that passes nothing on. -/
theorem shiftAll_concat_of_ok {ts : List Token} {tok : Token}
    (h : shiftAll [] ts = .ok ([], waiting)) (htok : shift waiting tok = .ok ([], waiting')) :
    shiftAll [] (ts ++ [tok]) = .ok ([], waiting') := by
  rw [shiftAll_append_of_ok h, shiftAll_cons_of_ok htok]
  rfl

/-- A graded stack is what its own operators and brackets leave, one behind the other. -/
theorem IsGraded.exists_shiftAll (h : IsGraded waiting) :
    ∃ ts, shiftAll [] ts = .ok ([], waiting) := by
  induction h with
  | nil => exact ⟨[], rfl⟩
  | leftBracket h ih =>
      obtain ⟨ts, hts⟩ := ih
      exact ⟨ts ++ [.leftBracket], shiftAll_concat_of_ok hts rfl⟩
  | @operator op waiting h hop ih =>
      obtain ⟨ts, hts⟩ := ih
      refine ⟨ts ++ [.operator op], shiftAll_concat_of_ok hts ?_⟩
      rw [shift, release_of_isBelow hop]

/-- **The graded stacks are those that come about.** -/
theorem exists_shiftAll_iff_isGraded :
    (∃ ts out, shiftAll [] ts = .ok (out, waiting)) ↔ IsGraded waiting := by
  refine ⟨fun h => ?_, fun h => ?_⟩
  · obtain ⟨ts, out, hts⟩ := h
    exact isGraded_shiftAll .nil hts
  · obtain ⟨ts, hts⟩ := h.exists_shiftAll
    exact ⟨ts, [], hts⟩

/-! ## 3. The levels of the stack -/

/-- **The longest stack**: two operators under, between and above as many brackets as one likes. -/
theorem exists_shiftAll_length_eq (depth : Nat) :
    ∃ ts waiting, shiftAll [] ts = .ok ([], waiting) ∧ openBrackets waiting = depth ∧
      waiting.length = 3 * depth + 2 := by
  have hlongest : ∃ waiting, IsGraded waiting ∧ openBrackets waiting = depth ∧
      waiting.length = 3 * depth + 2 := by
    induction depth with
    | zero =>
        refine ⟨[.operator .division, .operator .addition], ?_, rfl, rfl⟩
        exact .operator (.operator .nil (isBelow_nil _)) (isBelow_operator (by decide) _)
    | succ depth ih =>
        obtain ⟨waiting, hgraded, hopen, hlength⟩ := ih
        refine ⟨.operator .division :: .operator .addition :: .leftBracket :: waiting, ?_, ?_, ?_⟩
        · exact .operator (.operator (.leftBracket hgraded) (isBelow_leftBracket _ _))
            (isBelow_operator (by decide) _)
        · rw [openBrackets_operator, openBrackets_operator, openBrackets_leftBracket, hopen]
        · simp only [List.length_cons, hlength]
          omega
  obtain ⟨waiting, hgraded, hopen, hlength⟩ := hlongest
  obtain ⟨ts, hts⟩ := hgraded.exists_shiftAll
  exact ⟨ts, waiting, hts, hopen, hlength⟩

/-- **What waits after each token.** As many brackets wait as are open; of the operators that wait
    with no bracket between them, at most two, a higher one holds more closely than a lower one; and
    with three for each open bracket and two more the stack is full. -/
theorem waiting_levels {ts : List Token} {n : Nat} {out : Postfix} {waiting : List Waiting}
    (h : shiftAll [] (ts.take n) = .ok (out, waiting)) :
    depth? 0 (ts.take n) = some (openBrackets waiting) ∧
      (∀ above ops below, waiting = above ++ waitingFor ops ++ below →
        (ops.Pairwise fun upper lower => lower.precedence < upper.precedence) ∧ ops.length ≤ 2) ∧
      waiting.length ≤ 3 * openBrackets waiting + 2 := by
  have hgraded : IsGraded waiting := isGraded_shiftAll .nil h
  refine ⟨(conserves_shiftAll h).depth, fun above ops below heq => ?_, hgraded.length_le⟩
  rw [heq] at hgraded
  have hlevel : IsGraded (waitingFor ops) := hgraded.take.drop
  have hlength := hlevel.length_le
  rw [openBrackets_waitingFor, waitingFor, List.length_map] at hlength
  exact ⟨hlevel.pairwise, hlength⟩

/-- Of `8 - 3 * (5 + 2 / 4) - 1` the first nine tokens, which end with the division: the stack is as
    full as it gets with one bracket open. -/
theorem waiting_levels_full :
    let ts : List Token := [.number false ['8'], .operator .subtraction, .number false ['3'],
      .operator .multiplication, .leftBracket, .number false ['5'], .operator .addition,
      .number false ['2'], .operator .division, .number false ['4'], .rightBracket,
      .operator .subtraction, .number false ['1']]
    let waiting : List Waiting := [.operator .division, .operator .addition, .leftBracket,
      .operator .multiplication, .operator .subtraction]
    (∃ out, shiftAll [] (ts.take 9) = .ok (out, waiting)) ∧ depth? 0 (ts.take 9) = some 1 ∧
      waiting.length = 3 * 1 + 2 ∧
      Operator.addition.precedence < Operator.division.precedence := by
  intro ts waiting
  have h : ∃ out, shiftAll [] (ts.take 9) = .ok (out, waiting) := ⟨_, by rfl⟩
  obtain ⟨out, hout⟩ := h
  obtain ⟨hdepth, hlevels, -⟩ := waiting_levels hout
  have htop := (hlevels [] [.division, .addition] _ rfl).1
  exact ⟨⟨out, hout⟩, hdepth, rfl, (List.pairwise_cons.1 htop).1 .addition (by simp)⟩

end Postfix

end Calculator

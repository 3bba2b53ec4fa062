import Calculator.Proofs.Postfix.Waiting

/-!
# Expressions in brackets are converted and computed on their own

Tokens behind an opening bracket do not see what waits below it (`shiftAll_below`), so the form of
tokens in brackets is the one that they have alone (`shiftAll_of_ofTokens`). A form that has a value
does not see the values below its own (`run_below`), so it puts its value on top of any stack
(`run_of_value`). Together: whatever tokens stand around a pair of brackets, the outcome depends
only on the value of what stands between them (`exists_outcome`).
-/

namespace Calculator

namespace Postfix

/-! ## 1. Conversions above an opening bracket -/

theorem IsBelow.append_leftBracket {p : Nat} {waiting : List Waiting} (h : IsBelow p waiting)
    (below : List Waiting) : IsBelow p (waiting ++ .leftBracket :: below) := by
  cases waiting with
  | nil => exact isBelow_leftBracket p below
  | cons top rest => exact h

/-- **A token that needs nothing from below an opening bracket changes nothing there.** -/
theorem shift_below {waiting waiting' : List Waiting} {tok : Token} {out : Postfix}
    (h : shift waiting tok = .ok (out, waiting')) (below : List Waiting) :
    shift (waiting ++ .leftBracket :: below) tok =
      .ok (out, waiting' ++ .leftBracket :: below) := by
  refine shift_eq_ok_iff.2 ?_
  rcases shift_eq_ok_iff.1 h with hnumber | ⟨op, ops, rest, rfl, rfl, hops, hrest, rfl, rfl⟩ |
    ⟨rfl, rfl, rfl⟩ | ⟨ops, rfl, rfl, rfl⟩
  · obtain ⟨negative, text, x, rfl, hx, rfl, rfl⟩ := hnumber
    exact Or.inl ⟨negative, text, x, rfl, hx, rfl, rfl⟩
  · exact Or.inr (Or.inl ⟨op, ops, _, rfl, List.append_assoc .., hops,
      hrest.append_leftBracket below, rfl, rfl⟩)
  · exact Or.inr (Or.inr (Or.inl ⟨rfl, rfl, rfl⟩))
  · exact Or.inr (Or.inr (Or.inr ⟨ops, rfl, List.append_assoc .., rfl⟩))

theorem shiftAll_below {waiting waiting' : List Waiting} {ts : List Token} {out : Postfix}
    (h : shiftAll waiting ts = .ok (out, waiting')) (below : List Waiting) :
    shiftAll (waiting ++ .leftBracket :: below) ts =
      .ok (out, waiting' ++ .leftBracket :: below) := by
  induction ts generalizing waiting out with
  | nil =>
      obtain ⟨rfl, rfl⟩ := Prod.mk.inj (Except.ok.inj h)
      rfl
  | cons tok ts ih =>
      obtain ⟨first, waiting₁, others, hs, hr, rfl⟩ := shiftAll_cons_eq_ok_iff.1 h
      exact shiftAll_cons_eq_ok_iff.2 ⟨first, _, others, shift_below hs below, ih hr, rfl⟩

/-- **Tokens in brackets pass on the form that they have alone.** -/
theorem shiftAll_of_ofTokens {ts : List Token} {es : Postfix} (h : ofTokens ts = .ok es)
    (waiting : List Waiting) :
    shiftAll waiting (.leftBracket :: ts ++ [.rightBracket]) = .ok (es, waiting) := by
  obtain ⟨out, ops, hs, rfl⟩ := ofTokens_eq_ok_iff.1 h
  exact shiftAll_brackets (shiftAll_below hs waiting)

/-- **Tokens around brackets make a form with a hole**, which the form of the tokens between the
    brackets fills. -/
theorem exists_hole (pre post : List Token) :
    ∃ hole : Except Error (Postfix × Postfix), ∀ ts es, ofTokens ts = .ok es →
      ofTokens (pre ++ ((.leftBracket :: ts ++ [.rightBracket]) ++ post)) =
        hole.map fun parts => parts.1 ++ (es ++ parts.2) := by
  cases hpre : shiftAll [] pre with
  | error e =>
      refine ⟨.error e, fun ts es _ => ?_⟩
      rw [ofTokens, shiftAll_append, hpre]
      rfl
  | ok r =>
      obtain ⟨before, waiting⟩ := r
      refine ⟨(shiftAll waiting post).bind fun r =>
        (flush r.2).map fun out => (before, r.1 ++ out), fun ts es hes => ?_⟩
      have hmid := shiftAll_of_ofTokens hes waiting
      rw [ofTokens, shiftAll_append_of_ok hpre, shiftAll_append_of_ok hmid]
      cases shiftAll waiting post with
      | error e => rfl
      | ok r =>
          obtain ⟨after, waiting'⟩ := r
          simp only [Except.map, Except.bind]
          cases flush waiting' <;> simp

/-! ## 2. Computing above other values -/

/-- **What a form makes of a stack it makes of it above other values.** -/
theorem run_below {stack stack' : List Double} {es : Postfix} (h : run stack es = .ok stack')
    (below : List Double) : run (stack ++ below) es = .ok (stack' ++ below) := by
  fun_induction run stack es with
  | case1 stack =>
      obtain rfl := Except.ok.inj h
      rfl
  | case2 stack x es ih => exact ih h
  | case3 second first stack op es x hop ih =>
      show run (second :: first :: (stack ++ below)) (.operator op :: es) = _
      rw [run, hop]
      exact ih h
  | case4 => simp at h
  | case5 => simp at h

/-- A form that has a value puts it on top of any stack. -/
theorem run_of_value {es : Postfix} {x : Double} (h : es.value = .ok x) (stack : List Double) :
    run stack es = .ok (x :: stack) :=
  run_below (value_eq_ok_iff.1 h) stack

/-- **The outcome of tokens around brackets depends only on the value between the brackets.** -/
theorem exists_outcome (pre post : List Token) :
    ∃ outcome : Double → Except Error Double, ∀ ts es x, ofTokens ts = .ok es → es.value = .ok x →
      (ofTokens (pre ++ ((.leftBracket :: ts ++ [.rightBracket]) ++ post))).bind value =
        outcome x := by
  obtain ⟨hole, hhole⟩ := exists_hole pre post
  refine ⟨fun x => hole.bind fun parts =>
    ((run [] parts.1).bind fun stack => run (x :: stack) parts.2).bind result,
    fun ts es x hes hx => ?_⟩
  rw [hhole ts es hes]
  cases hole with
  | error e => rfl
  | ok r =>
      obtain ⟨before, after⟩ := r
      show (run [] (before ++ (es ++ after))).bind result =
        ((run [] before).bind fun stack => run (x :: stack) after).bind result
      rw [run_append]
      cases run [] before with
      | error e => rfl
      | ok stack =>
          show (run stack (es ++ after)).bind result = (run (x :: stack) after).bind result
          rw [run_append, run_of_value hx stack]
          rfl

end Postfix

end Calculator

import Calculator.Postfix.Faults
import Calculator.Proofs.Postfix.Faults
import Mathlib.Data.List.Induction

/-!
# The verdict on tokens

A token is faulty behind others exactly if the conversion, having taken those, cannot take it
(`isFault_iff_shift`). So the conversion takes all tokens exactly if none is faulty
(`exists_shiftAll_iff`), and else stops at the earliest faulty one
(`shiftAll_eq_error_iff_earliest`). Main statement: `ofTokens_verdict`, the earliest faulty token
decides, then the number of brackets, and operators have no say.
-/

namespace Calculator

open Token (HasFault IsFault IsEarliestFault depth? depthAfter?)

/-! ## 1. Open brackets -/

namespace Token

/-- The brackets that are open are those before, and those opened, without those closed. -/
theorem count_leftBracket_of_depth? {d d' : Nat} {ts : List Token} (h : depth? d ts = some d') :
    d + ts.count .leftBracket = d' + ts.count .rightBracket := by
  induction ts generalizing d with
  | nil =>
      obtain rfl : d = d' := Option.some.inj h
      rfl
  | cons tok ts ih =>
      cases tok with
      | number negative text => simpa using ih h
      | operator op => simpa using ih h
      | leftBracket =>
          have hcount := ih (d := d + 1) h
          rw [List.count_cons_self, List.count_cons_of_ne (by simp)]
          omega
      | rightBracket =>
          rw [depth?, depthAfter?] at h
          rw [List.count_cons_self, List.count_cons_of_ne (by simp)]
          by_cases hd : d = 0
          · simp [hd] at h
          · rw [if_neg hd] at h
            have hcount := ih (d := d - 1) h
            omega

/-- Where brackets are open at the end, one of them was opened before all that follows it. -/
theorem exists_open {m : Nat} {ts : List Token} (h : depth? 0 ts = some (m + 1)) :
    ∃ before after, ts = before ++ .leftBracket :: after ∧ depth? 0 after = some m := by
  induction ts using List.reverseRecOn generalizing m with
  | nil => simp [depth?] at h
  | append_singleton ts tok ih =>
      rw [depth?_append] at h
      obtain ⟨k, hk, hlast⟩ := Option.bind_eq_some_iff.1 h
      rw [depth?] at hlast
      obtain ⟨k', hafter, hend⟩ := Option.bind_eq_some_iff.1 hlast
      obtain rfl : k' = m + 1 := Option.some.inj hend
      have hgo : ∀ {n}, depth? 0 ts = some (n + 1) → depthAfter? n tok = some m →
          ∃ before after, ts ++ [tok] = before ++ .leftBracket :: after ∧
            depth? 0 after = some m := by
        intro n hn htok
        obtain ⟨before, after, rfl, hdepth⟩ := ih hn
        refine ⟨before, after ++ [tok], by simp, ?_⟩
        rw [depth?_append, hdepth, Option.bind_some, depth?, htok]
        rfl
      cases tok with
      | number negative text =>
          obtain rfl : k = m + 1 := Option.some.inj hafter
          exact hgo hk rfl
      | operator op =>
          obtain rfl : k = m + 1 := Option.some.inj hafter
          exact hgo hk rfl
      | leftBracket =>
          obtain rfl : k = m := Nat.succ.inj (Option.some.inj hafter)
          cases k with
          | zero => exact ⟨ts, [], rfl, rfl⟩
          | succ k => exact hgo hk rfl
      | rightBracket =>
          obtain rfl : k = m + 2 := by
            by_cases hzero : k = 0
            · simp [depthAfter?, hzero] at hafter
            · rw [depthAfter?, if_neg hzero, Option.some.injEq] at hafter
              omega
          exact hgo hk rfl

/-- **All brackets are closed exactly if none is open in the end**, where each that is closed was
    open. -/
theorem allClosed_iff {d : Nat} {ts : List Token} (h : depth? 0 ts = some d) :
    AllClosed ts ↔ d = 0 := by
  refine ⟨fun hclosed => ?_, ?_⟩
  · cases d with
    | zero => rfl
    | succ m =>
        obtain ⟨before, after, rfl, hafter⟩ := exists_open h
        obtain ⟨p, ⟨r, rfl⟩, hlt⟩ := hclosed before after rfl
        rw [depth?_append] at hafter
        obtain ⟨k, hk, -⟩ := Option.bind_eq_some_iff.1 hafter
        have hcount := count_leftBracket_of_depth? hk
        omega
  · intro hd before after hts
    subst hd hts
    rw [depth?_append] at h
    obtain ⟨k, -, hafter⟩ := Option.bind_eq_some_iff.1 h
    have hcount := count_leftBracket_of_depth? (d := k + 1) hafter
    exact ⟨after, List.prefix_rfl, by omega⟩

end Token

namespace Postfix

/-! ## 2. Faulty tokens -/

variable {ts before : List Token} {tok : Token} {e : Error}

/-- **A token is faulty exactly if it cannot be taken behind those before it.** -/
theorem isFault_iff_shift {out : Postfix} {waiting : List Waiting}
    (h : shiftAll [] before = .ok (out, waiting)) :
    IsFault before tok e ↔ shift waiting tok = .error e := by
  have hdepth : depth? 0 before = some (openBrackets waiting) := (conserves_shiftAll h).depth
  rw [shift_eq_error_iff]
  refine ⟨fun hfault => ?_, fun hshift => ?_⟩
  · cases hfault with
    | unreadable negative hnone => exact .inl ⟨rfl, hnone, rfl⟩
    | unopened hclosed => exact .inr ⟨rfl, (Token.allClosed_iff hdepth).1 hclosed, rfl⟩
  · rcases hshift with ⟨hnumber, hnone, rfl⟩ | ⟨rfl, hopen, rfl⟩
    · cases tok with
      | number negative text => exact .unreadable negative hnone
      | operator op => simp [Token.isNumber] at hnumber
      | leftBracket => simp [Token.isNumber] at hnumber
      | rightBracket => simp [Token.isNumber] at hnumber
    · exact .unopened ((Token.allClosed_iff hdepth).2 hopen)

/-- What comes first has been taken if all has. -/
theorem exists_shiftAll_of_append {waiting waiting' : List Waiting} {ts ts' : List Token}
    {out : Postfix} (h : shiftAll waiting (ts ++ ts') = .ok (out, waiting')) :
    ∃ first waiting₁, shiftAll waiting ts = .ok (first, waiting₁) := by
  rw [shiftAll_append] at h
  cases hts : shiftAll waiting ts with
  | error e => rw [hts] at h; simp at h
  | ok r => exact ⟨r.1, r.2, rfl⟩

/-- **All tokens are taken exactly if none is faulty.** -/
theorem exists_shiftAll_iff :
    (∃ out waiting, shiftAll [] ts = .ok (out, waiting)) ↔ ¬ HasFault ts := by
  refine ⟨fun htaken hfault => ?_, fun hnone => ?_⟩
  · obtain ⟨out, waiting, hts⟩ := htaken
    obtain ⟨before, tok, after, e, rfl, hfault⟩ := hfault
    obtain ⟨first, waiting₁, hbefore⟩ := exists_shiftAll_of_append hts
    have herror : shiftAll [] (before ++ tok :: after) = .error e :=
      shiftAll_eq_error_iff.2
        ⟨before, tok, after, first, waiting₁, rfl, hbefore, (isFault_iff_shift hbefore).1 hfault⟩
    rw [hts] at herror
    exact nomatch herror
  · cases hts : shiftAll [] ts with
    | ok r => exact ⟨r.1, r.2, rfl⟩
    | error e =>
        obtain ⟨before, tok, after, out, waiting, rfl, hbefore, htok⟩ := shiftAll_eq_error_iff.1 hts
        exact absurd ⟨before, tok, after, e, rfl, (isFault_iff_shift hbefore).2 htok⟩ hnone

/-- **A conversion stops at the earliest faulty token.** -/
theorem shiftAll_eq_error_iff_earliest : shiftAll [] ts = .error e ↔ IsEarliestFault ts e := by
  rw [shiftAll_eq_error_iff]
  refine ⟨fun h => ?_, fun h => ?_⟩
  · obtain ⟨before, tok, after, out, waiting, hts, hbefore, htok⟩ := h
    exact ⟨before, tok, after, hts, (isFault_iff_shift hbefore).2 htok,
      exists_shiftAll_iff.1 ⟨out, waiting, hbefore⟩⟩
  · obtain ⟨before, tok, after, hts, hfault, hnone⟩ := h
    obtain ⟨out, waiting, hbefore⟩ := exists_shiftAll_iff.2 hnone
    exact ⟨before, tok, after, out, waiting, hts, hbefore, (isFault_iff_shift hbefore).1 hfault⟩

/-- Where a token is faulty one is the earliest. -/
theorem exists_isEarliestFault (h : HasFault ts) : ∃ e, IsEarliestFault ts e := by
  cases hts : shiftAll [] ts with
  | error e => exact ⟨e, shiftAll_eq_error_iff_earliest.1 hts⟩
  | ok r => exact absurd h (exists_shiftAll_iff.1 ⟨r.1, r.2, hts⟩)

/-! ## 3. The conversion -/

/-- Where no token is faulty, what waits in the end tells whether more brackets are opened than
    closed. -/
theorem count_leftBracket_of_shiftAll {out : Postfix} {waiting : List Waiting}
    (h : shiftAll [] ts = .ok (out, waiting)) :
    ts.count .leftBracket = openBrackets waiting + ts.count .rightBracket := by
  have hcount := Token.count_leftBracket_of_depth? (conserves_shiftAll h).depth
  rwa [show openBrackets [] = 0 from rfl, Nat.zero_add] at hcount

/-- Where a conversion takes all tokens, it fails exactly if a bracket is left open. -/
theorem ofTokens_eq_error_iff_of_ok {out : Postfix} {waiting : List Waiting}
    (h : shiftAll [] ts = .ok (out, waiting)) :
    ofTokens ts = .error e ↔
      e = .unmatchedLeft ∧ ts.count .rightBracket < ts.count .leftBracket := by
  rw [ofTokens, h]
  show (flush waiting).map (out ++ ·) = .error e ↔ _
  rw [map_eq_error_iff, flush_eq_error_iff, count_leftBracket_of_shiftAll h, and_comm]
  exact and_congr_right fun _ => by omega

/-- **The earliest faulty token is answered, and a bracket left open only where none is faulty.** -/
theorem ofTokens_eq_error_iff :
    ofTokens ts = .error e ↔
      IsEarliestFault ts e ∨
        (e = .unmatchedLeft ∧ ¬ HasFault ts ∧ ts.count .rightBracket < ts.count .leftBracket) := by
  rw [← shiftAll_eq_error_iff_earliest, ← exists_shiftAll_iff]
  cases hts : shiftAll [] ts with
  | error e' => simp [ofTokens, hts]
  | ok r =>
      obtain ⟨out, waiting⟩ := r
      rw [ofTokens_eq_error_iff_of_ok hts]
      simp

/-- **There is a form exactly if the numbers read and the brackets match.** -/
theorem exists_ofTokens_iff :
    (∃ es, ofTokens ts = .ok es) ↔ (∀ tok ∈ ts, tok.Reads) ∧ depth? 0 ts = some 0 := by
  refine ⟨fun hform => ?_, fun h => ?_⟩
  · obtain ⟨es, hes⟩ := hform
    obtain ⟨hnumbers, -, hdepth⟩ := conserves_ofTokens hes
    refine ⟨fun tok htok hn => ?_, hdepth⟩
    have hvalue : tok.value? ∈ (Token.numbers ts).map Token.value? :=
      List.mem_map_of_mem (List.mem_filter.2 ⟨htok, hn⟩)
    rw [← hnumbers] at hvalue
    obtain ⟨x, -, hx⟩ := List.mem_map.1 hvalue
    exact ⟨x, hx.symm⟩
  · obtain ⟨hread, hdepth⟩ := h
    rcases ofTokens_cases hread with ⟨hnone, -⟩ | ⟨d, hd, -⟩ | ⟨-, hform⟩
    · rw [hdepth] at hnone
      exact nomatch hnone
    · rw [hdepth] at hd
      exact nomatch hd
    · exact hform

/-- Operators always read. -/
theorem reads_filter_operator (ts : List Token) :
    (∀ tok ∈ ts, tok.Reads) ↔ ∀ tok ∈ ts.filter fun tok => !tok.isOperator, tok.Reads := by
  refine ⟨fun h tok htok => h tok (List.mem_filter.1 htok).1, fun h tok htok hn => ?_⟩
  refine h tok (List.mem_filter.2 ⟨htok, ?_⟩) hn
  cases tok with
  | operator op => exact nomatch hn
  | number negative text => rfl
  | leftBracket => rfl
  | rightBracket => rfl

/-- Operators open and close no bracket. -/
theorem depth?_filter_operator (d : Nat) (ts : List Token) :
    depth? d (ts.filter fun tok => !tok.isOperator) = depth? d ts := by
  induction ts generalizing d with
  | nil => rfl
  | cons tok ts ih =>
      cases tok with
      | number negative text => exact ih d
      | operator op => exact ih d
      | leftBracket => exact ih (d + 1)
      | rightBracket =>
          show (depthAfter? d .rightBracket).bind _ = (depthAfter? d .rightBracket).bind _
          congr 1
          funext d'
          exact ih d'

/-- **The earliest faulty token decides**, and its error is the answer. Where none is faulty, more
    brackets may be opened than closed, and else there is a form. Operators have no say in whether
    there is one: however many are put in or taken out, and wherever, nothing changes. -/
theorem ofTokens_verdict (ts : List Token) :
    (HasFault ts → ∃ e, IsEarliestFault ts e) ∧
      (∀ e, ofTokens ts = .error e ↔
        IsEarliestFault ts e ∨
          (e = .unmatchedLeft ∧ ¬ HasFault ts ∧ ts.count .rightBracket < ts.count .leftBracket)) ∧
      ((∃ es, ofTokens ts = .ok es) ↔
        ¬ HasFault ts ∧ ts.count .leftBracket ≤ ts.count .rightBracket) ∧
      ∀ ts', (ts'.filter fun tok => !tok.isOperator) = (ts.filter fun tok => !tok.isOperator) →
        ((∃ es, ofTokens ts' = .ok es) ↔ ∃ es, ofTokens ts = .ok es) := by
  refine ⟨exists_isEarliestFault, fun e => ofTokens_eq_error_iff, ⟨fun hform => ?_, fun h => ?_⟩,
    fun ts' hfilter => ?_⟩
  · obtain ⟨es, hes⟩ := hform
    have hanswer : ∀ e, ofTokens ts ≠ .error e := fun e he => nomatch hes.symm.trans he
    have hnone : ¬ HasFault ts := by
      intro hfault
      obtain ⟨e, he⟩ := exists_isEarliestFault hfault
      exact hanswer e (ofTokens_eq_error_iff.2 (.inl he))
    refine ⟨hnone, Nat.le_of_not_lt fun hlt => ?_⟩
    exact hanswer .unmatchedLeft (ofTokens_eq_error_iff.2 (.inr ⟨rfl, hnone, hlt⟩))
  · obtain ⟨hnone, hle⟩ := h
    cases hes : ofTokens ts with
    | ok es => exact ⟨es, rfl⟩
    | error e =>
        rcases ofTokens_eq_error_iff.1 hes with ⟨before, tok, after, hts, hfault, -⟩ | ⟨-, -, hlt⟩
        · exact absurd ⟨before, tok, after, e, hts, hfault⟩ hnone
        · exact absurd hle (Nat.not_le_of_lt hlt)
  · rw [exists_ofTokens_iff, exists_ofTokens_iff, reads_filter_operator ts',
      reads_filter_operator ts, ← depth?_filter_operator 0 ts', ← depth?_filter_operator 0 ts,
      hfilter]

/-- Two faulty tokens: the closing bracket is the earlier one. -/
theorem ofTokens_verdict_two_faults :
    IsEarliestFault [.rightBracket, .number false ['.']] .unmatchedRight ∧
      ofTokens [.rightBracket, .number false ['.']] = .error .unmatchedRight := by
  have hclosed : Token.AllClosed [] := fun before after h => by simp at h
  have hnone : ¬ HasFault [] := by
    intro h
    obtain ⟨before, tok, after, e, hts, -⟩ := h
    simp at hts
  have h : IsEarliestFault [.rightBracket, .number false ['.']] .unmatchedRight :=
    ⟨[], .rightBracket, _, rfl, .unopened hclosed, hnone⟩
  exact ⟨h, ((ofTokens_verdict _).2.1 _).2 (.inl h)⟩

end Postfix

end Calculator

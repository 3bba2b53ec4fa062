import Calculator.Proofs.Token.Cut
import Mathlib.Data.List.Basic

/-!
# Errors of the scan are exact

A scan takes a point only as the decimal point of a number, and it comes to each number at the start
of its run of digits and points. So the points that it has passed are decimal points, and one that
it comes to is none (`Parted`, kept by each token: `Parted.next?`). Main statement:
`ofText_error_exact`, the characters outside the alphabet come first, then the first point that is
no decimal point, and a text with neither has its tokens.
-/

namespace Calculator

/-! ## 1. Points of a literal -/

theorem IsDigits.point_notMem {t : Text} (h : IsDigits t) : '.' ∉ t := fun hmem =>
  absurd (h.2 '.' hmem) (by decide)

/-- On both sides of the point of a literal stand digits. -/
theorem IsLiteral.isDigits_of_point {s u : Text} (h : IsLiteral (s ++ '.' :: u)) :
    IsDigits s ∧ IsDigits u := by
  rcases h with h | ⟨whole, fraction, hw, hf, heq⟩
  · exact absurd (List.mem_append_right s List.mem_cons_self) h.point_notMem
  · obtain ⟨rfl, -, rfl⟩ :=
      (List.append_cons_inj_of_notMem hw.point_notMem hf.point_notMem).1 heq.symm
    exact ⟨hw, hf⟩

/-- Digits before a decimal point are not all of the literal. -/
theorem IsDigits.literal?_ne {w u r : Text} {c : Char} (h : IsDigits w) (hc : c.isDigit = true) :
    literal? (w ++ '.' :: c :: u) ≠ some (w, r) := by
  have hne := h.1
  simp [literal?, takeWhile_append_point h, dropWhile_append_point h, hc, hne]

namespace Token

theorem takeWhile_isDigitOrPoint_reverse_append {before w : Text}
    (hw : ∀ c ∈ w, isDigitOrPoint c = true) :
    (before ++ w).reverse.takeWhile isDigitOrPoint =
      w.reverse ++ before.reverse.takeWhile isDigitOrPoint := by
  rw [List.reverse_append]
  exact List.takeWhile_append_of_pos fun c hc => hw c (List.mem_reverse.1 hc)

/-- The point of a literal at the start of a run is the decimal point of the run. -/
theorem isDecimalPoint_of_isDigits {before whole fraction after : Text}
    (hstart : before.reverse.takeWhile isDigitOrPoint = []) (hw : IsDigits whole)
    (hf : IsDigits fraction) : IsDecimalPoint (before ++ whole) (fraction ++ after) := by
  have hrun : ∀ c ∈ whole, isDigitOrPoint c = true := IsLiteral.isDigitOrPoint (.inl hw)
  obtain ⟨c, r, rfl, hc⟩ := hf.exists_cons
  refine ⟨?_, ⟨c, rfl, hc⟩, ?_⟩
  · obtain hnil | ⟨whole', d, rfl⟩ := whole.eq_nil_or_concat
    · exact absurd hnil hw.1
    · exact ⟨d, by simp, hw.2 d (by simp)⟩
  · rw [takeWhile_isDigitOrPoint_reverse_append hrun, hstart, List.append_nil, List.mem_reverse]
    exact hw.point_notMem

/-- A point of a text in two parts stands in one of them. -/
theorem point_append_cases {s u pre post : Text} (h : s ++ u = pre ++ '.' :: post) :
    (∃ mid, s = pre ++ '.' :: mid ∧ post = mid ++ u) ∨
      ∃ mid, pre = s ++ mid ∧ u = mid ++ '.' :: post := by
  rcases List.append_eq_append_iff.1 h with ⟨mid, hpre, hu⟩ | ⟨mid, hs, hpoint⟩
  · exact .inr ⟨mid, hpre, hu⟩
  · rcases List.cons_eq_append_iff.1 hpoint with ⟨rfl, hu⟩ | ⟨mid', rfl, hpost⟩
    · rw [List.append_nil] at hs
      exact .inr ⟨[], by rw [hs, List.append_nil], hu⟩
    · exact .inl ⟨mid', hs, hpost⟩

/-! ## 2. Between two tokens -/

/-- What holds of the two parts of a text between two of its tokens. -/
structure Parted (before after : Text) : Prop where
  /-- A number comes next only where its run of digits and points starts. -/
  starts : (∃ c ∈ after.head?, c.isDigit = true) → before.reverse.takeWhile isDigitOrPoint = []
  /-- The points before are decimal points. -/
  passed : ∀ pre post, before = pre ++ '.' :: post → IsDecimalPoint pre (post ++ after)
  /-- A point that comes next is none. -/
  comes : ∀ post, after = '.' :: post → ¬ IsDecimalPoint before post

variable {before after : Text}

theorem parted_nil (t : Text) : Parted [] t where
  starts _ := rfl
  passed pre post h := by simp at h
  comes post _ hpoint := by
    obtain ⟨⟨c, hc, -⟩, -⟩ := hpoint
    simp at hc

/-- A character that is neither a digit nor a point ends each run. -/
theorem Parted.char {c : Char} (h : Parted before (c :: after)) (hc : isDigitOrPoint c = false) :
    Parted (before ++ [c]) after where
  starts _ := by simp [hc]
  passed pre post heq := by
    rcases point_append_cases heq with ⟨mid, hbefore, rfl⟩ | ⟨mid, -, hmid⟩
    · rw [List.append_assoc]
      exact h.passed pre mid hbefore
    · have hmem : '.' ∈ [c] := by
        rw [hmid]
        exact List.mem_append_right mid List.mem_cons_self
      rw [← List.mem_singleton.1 hmem] at hc
      exact absurd hc (by decide)
  comes post _ hpoint := by
    obtain ⟨⟨d, hd, hdigit⟩, -⟩ := hpoint
    obtain rfl : c = d := by simpa using hd
    simp [isDigitOrPoint, hdigit] at hc

/-- **A literal takes the decimal point of its run**, and none is left of the run. -/
theorem Parted.literal {w : Text} (h : Parted before (w ++ after))
    (hw : literal? (w ++ after) = some (w, after)) : Parted (before ++ w) after := by
  have hl := isLiteral_of_literal? hw
  have hstart : before.reverse.takeWhile isDigitOrPoint = [] := by
    obtain ⟨c, r, hcons, hc⟩ := hl.exists_cons
    exact h.starts ⟨c, by rw [hcons]; rfl, hc⟩
  refine ⟨fun hnext => ?_, fun pre post heq => ?_, fun post heq hpoint => ?_⟩
  · obtain ⟨c, hc, hdigit⟩ := hnext
    rw [isDigit_rest_of_literal? hw c hc] at hdigit
    exact absurd hdigit Bool.false_ne_true
  · rcases point_append_cases heq with ⟨mid, hbefore, rfl⟩ | ⟨mid, rfl, rfl⟩
    · rw [List.append_assoc]
      exact h.passed pre mid hbefore
    · obtain ⟨hwhole, hfraction⟩ := hl.isDigits_of_point
      exact isDecimalPoint_of_isDigits hstart hwhole hfraction
  · -- a first point of the run with a digit behind it would have been taken
    obtain ⟨-, ⟨c, hc, hdigit⟩, hrun⟩ := hpoint
    obtain ⟨u, rfl⟩ := List.head?_eq_some_iff.1 hc
    rw [takeWhile_isDigitOrPoint_reverse_append hl.isDigitOrPoint, hstart, List.append_nil,
      List.mem_reverse] at hrun
    rcases hl with hdigits | ⟨whole, fraction, -, -, rfl⟩
    · rw [heq] at hw
      exact hdigits.literal?_ne hdigit hw
    · exact hrun (List.mem_append_right whole List.mem_cons_self)

theorem isDigitOrPoint_of_ofChar? {c : Char} {tok : Token} (h : ofChar? c = some tok) :
    isDigitOrPoint c = false := by
  unfold ofChar? at h
  split at h
  · next hc => rw [hc]; decide
  · split at h
    · next hc => rw [hc]; decide
    · obtain ⟨op, hop, -⟩ := Option.map_eq_some_iff.1 h
      rw [Operator.ofSymbol?_eq_some_iff.1 hop]
      cases op <;> decide

/-- **Behind a token the text is parted as before it.** -/
theorem Parted.next? {b : Bool} {tok : Token} {r : Text} (h : Parted before after)
    (hnext : Token.next? b after = some (tok, r)) : Parted (before ++ tok.text) r := by
  have happ := next?_append hnext
  rcases next?_cases hnext with ⟨w, rfl, -, hw⟩ | ⟨w, rfl, hw⟩ | ⟨c, htext, hc, -⟩
  · have hminus : Parted (before ++ ['-']) (w ++ r) := by
      rw [← happ] at h
      exact h.char (by decide)
    rw [text, List.append_cons]
    exact hminus.literal hw
  · rw [← happ] at h
    exact h.literal hw
  · rw [← happ, htext] at h
    rw [htext]
    exact h.char (isDigitOrPoint_of_ofChar? hc)

/-- Only at a point no token starts. -/
theorem eq_point_of_next?_eq_none {b : Bool} {c : Char} {r : Text}
    (h : Token.next? b (c :: r) = none) (hc : isSupported c = true) : c = '.' := by
  unfold Token.next? at h
  split at h
  · simp at h
  · split at h
    · simp at h
    · next hliteral =>
        have hdigit : c.isDigit = false := literal?_eq_none_iff.1 hliteral c rfl
        have hchar : ofChar? c = none := Option.map_eq_none_iff.1 h
        unfold ofChar? at hchar
        split at hchar
        · exact nomatch hchar
        · next hleft =>
            split at hchar
            · exact nomatch hchar
            · next hright =>
                have hop : Operator.ofSymbol? c = none := Option.map_eq_none_iff.1 hchar
                simpa [isSupported, hdigit, hleft, hright, hop] using hc

/-! ## 3. Errors -/

/-- **A scan ends at the first point that is no decimal point, else at the end.** -/
theorem scan_parted {position : Nat} {b : Bool} (h : Parted before after)
    (hposition : position = before.length) (hsupported : ∀ c ∈ after, isSupported c = true) :
    ((∃ ts, scan position b after = .ok ts) ∧ HasOnlyDecimalPoints (before ++ after)) ∨
      ∃ pre post, before ++ after = pre ++ '.' :: post ∧ IsFirstFault pre post ∧
        scan position b after =
          .error (.malformedNumber pre.length (('.' :: post).takeWhile (· = '.'))) := by
  fun_induction scan position b after generalizing before with
  | case1 position b after hempty =>
      obtain rfl : after = [] := by simpa using hempty
      refine .inl ⟨⟨[], rfl⟩, fun pre post heq => ?_⟩
      rw [List.append_nil] at heq
      simpa using h.passed pre post heq
  | case2 position b after _ tok r hnext ih =>
      have happ := next?_append hnext
      have hparted := h.next? hnext
      have hlength : position + tok.text.length = (before ++ tok.text).length := by
        rw [hposition, List.length_append]
      have hrest : ∀ c ∈ r, isSupported c = true := fun c hc =>
        hsupported c (happ ▸ List.mem_append_right _ hc)
      have ih := ih hparted hlength hrest
      rw [List.append_assoc, happ] at ih
      rcases ih with ⟨⟨ts, hts⟩, hpoints⟩ | ⟨pre, post, heq, hfault, hscan⟩
      · refine .inl ⟨⟨tok :: ts, ?_⟩, hpoints⟩
        rw [hts]
        rfl
      · refine .inr ⟨pre, post, heq, hfault, ?_⟩
        rw [hscan]
        rfl
  | case3 position b after hempty hnext =>
      obtain ⟨c, r, rfl⟩ := List.exists_cons_of_ne_nil (by simpa using hempty : after ≠ [])
      obtain rfl := eq_point_of_next?_eq_none hnext (hsupported c List.mem_cons_self)
      refine .inr ⟨before, r, rfl, ⟨h.comes r rfl, h.passed⟩, ?_⟩
      rw [hposition]

/-- **The errors of a text are exact.** What is wrong first is a character outside the alphabet: the
    error lists all of them. Else it is a point that is no decimal point: the error has the place of
    the first one and the points that stand there in a row. Else the text has its tokens. -/
theorem ofText_error_exact (t : Text) :
    let c := t.clean
    ((∃ x ∈ c, x ∉ alphabet) →
      ∃ foreign, ofText t = .error (.unsupportedCharacters foreign) ∧
        foreign.Pairwise (· < ·) ∧ ∀ x, x ∈ foreign ↔ x ∈ c ∧ x ∉ alphabet) ∧
    ((∀ x ∈ c, x ∈ alphabet) → ¬ HasOnlyDecimalPoints c →
      ∃ before after, c = before ++ '.' :: after ∧ IsFirstFault before after ∧
        ofText t =
          .error (.malformedNumber before.length (('.' :: after).takeWhile (· = '.')))) ∧
    ((∀ x ∈ c, x ∈ alphabet) → HasOnlyDecimalPoints c → ∃ ts, ofText t = .ok ts) := by
  intro c
  have hscan : (∀ x ∈ c, x ∈ alphabet) → ofText t = scan 0 false c ∧
      (((∃ ts, scan 0 false c = .ok ts) ∧ HasOnlyDecimalPoints c) ∨
        ∃ pre post, c = pre ++ '.' :: post ∧ IsFirstFault pre post ∧
          scan 0 false c =
            .error (.malformedNumber pre.length (('.' :: post).takeWhile (· = '.')))) := by
    intro hall
    have hsupported : ∀ x ∈ c, isSupported x = true := fun x hx => isSupported_iff.2 (hall x hx)
    have hforeign : unsupported c = [] := unsupported_eq_nil_iff.2 hsupported
    rw [ofText_eq, if_pos hforeign]
    exact ⟨rfl, scan_parted (parted_nil c) rfl hsupported⟩
  refine ⟨fun ⟨x, hx, hforeign⟩ => ?_, fun hall hfault => ?_, fun hall hpoints => ?_⟩
  · have hmem : ∀ x, x ∈ unsupported c ↔ x ∈ c ∧ x ∉ alphabet := by
      intro x
      simp [unsupported, ← isSupported_iff]
    refine ⟨unsupported c, ?_, Text.pairwise_distinct _, hmem⟩
    rw [ofText_eq, if_neg (List.ne_nil_of_mem ((hmem x).2 ⟨hx, hforeign⟩))]
  · obtain ⟨htext, ⟨-, hpoints⟩ | hfirst⟩ := hscan hall
    · exact absurd hpoints hfault
    · rw [htext]
      exact hfirst
  · obtain ⟨htext, ⟨hts, -⟩ | ⟨before, after, heq, hfirst, -⟩⟩ := hscan hall
    · rw [htext]
      exact hts
    · exact absurd (hpoints before after heq) hfirst.fault

/-- The second point of a run is at fault, and the one behind it belongs to the fragment. -/
example : ofText "1.2 . . 3 + .5".toList = .error (.malformedNumber 3 "..".toList) := by
  decide +kernel

end Token

end Calculator

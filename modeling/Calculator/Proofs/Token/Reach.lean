import Calculator.Proofs.Token.Points
import Calculator.Token.Reach
import Mathlib.Order.Bounds.Basic

/-!
# A literal reaches as far as it can

No literal at the head of a text is longer than the one that is cut off (`length_le_of_literal?`). A
scan by places goes over what a row has left from its place on, so each of its loops stops where the
cut does (`digitsEnd_of_drop`), and the scan finds the end of the literal that is cut off there
(`literalEnd?_eq`). Main statement: `literalEnd?_isGreatest`, the scan looks at no place outside the
row and answers with the end of the longest literal at its place.
-/

namespace Calculator

/-! ## 1. The longest literal of a text -/

/-- There is a literal to cut off where one stands. -/
theorem IsLiteral.exists_literal? {v : Text} (h : IsLiteral v) (u : Text) :
    ∃ w r, literal? (v ++ u) = some (w, r) := by
  obtain ⟨c, s, rfl, hc⟩ := h.exists_cons
  cases hcut : literal? (c :: s ++ u) with
  | none =>
      have hdigit : c.isDigit = false := literal?_eq_none_iff.1 hcut c rfl
      rw [hc] at hdigit
      exact absurd hdigit (by decide)
  | some p => exact ⟨p.1, p.2, rfl⟩

/-- Digits that are cut off alone have no fraction behind them. -/
theorem isDigit_of_literal?_point {t w u : Text} {c : Char} (hw : IsDigits w)
    (hcut : literal? t = some (w, '.' :: c :: u)) : c.isDigit = false := by
  rw [← literal?_append hcut] at hcut
  exact Bool.eq_false_iff.2 fun hc => hw.literal?_ne hc hcut

/-- What is cut off does not go on to a longer literal: the longer one would go on with the point of
    its fraction, and then the fraction is cut off too. -/
theorem not_isLiteral_of_literal? {w s u : Text}
    (hcut : literal? (w ++ (s ++ u)) = some (w, s ++ u)) (hs : s ≠ []) : ¬ IsLiteral (w ++ s) := by
  intro h
  obtain ⟨c, s, rfl⟩ := List.exists_cons_of_ne_nil hs
  have hc : c.isDigit = false := isDigit_rest_of_literal? hcut c rfl
  obtain rfl : c = '.' := by
    have hmem : Token.isDigitOrPoint c = true := h.isDigitOrPoint c (by simp)
    simpa [Token.isDigitOrPoint, hc] using hmem
  obtain ⟨hwhole, hfraction⟩ := h.isDigits_of_point
  obtain ⟨d, s, rfl, hd⟩ := hfraction.exists_cons
  rw [isDigit_of_literal?_point hwhole hcut] at hd
  exact absurd hd Bool.false_ne_true

/-- **The literal that is cut off is the longest one.** -/
theorem length_le_of_literal? {v u w r : Text} (h : IsLiteral v)
    (hcut : literal? (v ++ u) = some (w, r)) : v.length ≤ w.length := by
  have happ : w ++ r = v ++ u := literal?_append hcut
  rcases List.append_eq_append_iff.1 happ with ⟨s, hv, hr⟩ | ⟨s, hw, -⟩
  · rw [hv, List.append_assoc, hr] at hcut
    rw [hv] at h
    by_cases hs : s = []
    · rw [hv, hs, List.append_nil]
    · exact absurd h (not_isLiteral_of_literal? hcut hs)
  · rw [hw, List.length_append]
    exact Nat.le_add_right _ _

/-! ## 2. The scan by places -/

variable {row : Array Char} {place start stop : Nat}

/-- A look finds the character that what is left of the row starts with. -/
theorem look_of_drop {c : Char} {t : Text} (h : row.toList.drop place = c :: t) :
    look row place = .ok c ∧ place < row.size ∧ row.toList.drop (place + 1) = t := by
  have hget : row[place]? = some c := by
    rw [← Array.getElem?_toList, ← List.head?_drop, h]
    rfl
  refine ⟨?_, (Array.getElem?_eq_some_iff.1 hget).1, ?_⟩
  · rw [look, hget]
  · rw [← List.tail_drop, h]
    rfl

theorem not_lt_of_drop_eq_nil (h : row.toList.drop place = []) : ¬ place < row.size := by
  simpa using h

/-- What is left of a row, cut in two: the first part up to a place, and what is left from there. -/
theorem extract_of_drop {w u : Text} (h : row.toList.drop start = w ++ u) :
    (row.extract start (start + w.length)).toList = w ∧ row.toList.drop (start + w.length) = u := by
  refine ⟨?_, ?_⟩
  · rw [Array.toList_extract, List.extract_eq_take_drop, h, Nat.add_sub_cancel_left, List.take_left]
  · rw [← List.drop_drop, h, List.drop_left]

/-- **A loop over digits stops behind the digits that are left**, and looks at no place outside. -/
theorem digitsEnd_of_drop {t : Text} (h : row.toList.drop place = t) :
    digitsEnd row place = .ok (place + (t.takeWhile Char.isDigit).length) := by
  induction t generalizing place with
  | nil =>
      rw [digitsEnd, if_neg (not_lt_of_drop_eq_nil h)]
      rfl
  | cons c t ih =>
      obtain ⟨hlook, hlt, hrest⟩ := look_of_drop h
      rw [digitsEnd, if_pos hlt, hlook]
      change (if c.isDigit then digitsEnd row (place + 1) else .ok place) = _
      by_cases hc : c.isDigit = true
      · rw [if_pos hc, ih hrest, List.takeWhile_cons_of_pos hc, List.length_cons, Nat.add_assoc,
          Nat.add_comm 1]
      · rw [if_neg hc, List.takeWhile_cons_of_neg hc]
        rfl

theorem startsFraction_of_isDigit {c : Char} {t : Text}
    (h : row.toList.drop place = '.' :: c :: t) (hc : c.isDigit = true) :
    startsFraction row place = .ok true := by
  obtain ⟨hpoint, -, hrest⟩ := look_of_drop h
  obtain ⟨hlook, hlt, -⟩ := look_of_drop hrest
  rw [startsFraction, if_pos hlt, hpoint, hlook, ← hc]
  rfl

theorem startsFraction_of_not_isDigit
    (h : ∀ c t, row.toList.drop place = '.' :: c :: t → c.isDigit = false) :
    startsFraction row place = .ok false := by
  by_cases hlt : place + 1 < row.size
  · cases hleft : row.toList.drop place with
    | nil => exact absurd (Nat.lt_of_succ_lt hlt) (not_lt_of_drop_eq_nil hleft)
    | cons c t =>
        obtain ⟨hlook, -, hrest⟩ := look_of_drop hleft
        rw [startsFraction, if_pos hlt, hlook]
        by_cases hc : c = '.'
        · subst hc
          cases t with
          | nil => exact absurd hlt (not_lt_of_drop_eq_nil hrest)
          | cons d t =>
              obtain ⟨hnext, -, -⟩ := look_of_drop hrest
              rw [hnext, ← h d t hleft]
              rfl
        · change (if c = '.' then _ else Except.ok false) = _
          rw [if_neg hc]
  · rw [startsFraction, if_neg hlt]
    rfl

theorem literalEnd?_of_eq (h : digitsEnd row start = .ok start) :
    literalEnd? row start = .ok none := by
  rw [literalEnd?, h]
  change (if start = start then Except.ok none else _) = _
  rw [if_pos rfl]

theorem literalEnd?_of_whole (h : digitsEnd row start = .ok place) (hne : place ≠ start)
    (hpoint : startsFraction row place = .ok false) : literalEnd? row start = .ok (some place) := by
  rw [literalEnd?, h]
  change (if place = start then _ else startsFraction row place >>= _) = _
  rw [if_neg hne, hpoint]
  rfl

theorem literalEnd?_of_fraction (h : digitsEnd row start = .ok place) (hne : place ≠ start)
    (hpoint : startsFraction row place = .ok true) (hstop : digitsEnd row (place + 1) = .ok stop) :
    literalEnd? row start = .ok (some stop) := by
  rw [literalEnd?, h]
  change (if place = start then _ else startsFraction row place >>= _) = _
  rw [if_neg hne, hpoint]
  change (digitsEnd row (place + 1) >>= _) = _
  rw [hstop]
  rfl

/-- **The scan by places finds the end of the literal that is cut off there.** -/
theorem literalEnd?_eq (row : Array Char) (start : Nat) :
    literalEnd? row start =
      .ok ((literal? (row.toList.drop start)).map fun p => start + p.1.length) := by
  generalize hleft : row.toList.drop start = t
  have hend := digitsEnd_of_drop hleft
  have hrest : row.toList.drop (start + (t.takeWhile Char.isDigit).length) =
      t.dropWhile Char.isDigit := by
    have hsplit : t = t.takeWhile Char.isDigit ++ t.dropWhile Char.isDigit :=
      List.takeWhile_append_dropWhile.symm
    exact (extract_of_drop (hleft.trans hsplit)).2
  cases hcut : literal? t with
  | none =>
      have hnone : t.takeWhile Char.isDigit = [] := by
        have hhead := literal?_eq_none_iff.1 hcut
        cases t with
        | nil => rfl
        | cons c t => exact List.takeWhile_cons_of_neg (by simp [hhead c rfl])
      rw [hnone] at hend
      exact literalEnd?_of_eq hend
  | some p =>
      obtain ⟨w, r⟩ := p
      obtain ⟨hwhole, hforms⟩ := literal?_cases hcut
      have hne : start + (t.takeWhile Char.isDigit).length ≠ start := by
        have hpos := List.length_pos_iff.2 hwhole
        omega
      rcases hforms with ⟨rfl, rfl⟩ | ⟨c, u, hpoint, hc, rfl, rfl⟩
      · have hno : ∀ c u, row.toList.drop (start + (t.takeWhile Char.isDigit).length) =
            '.' :: c :: u → c.isDigit = false := by
          intro c u hpoint
          rw [hrest] at hpoint
          rw [hpoint] at hcut
          exact isDigit_of_literal?_point ⟨hwhole, mem_takeWhile_isDigit⟩ hcut
        exact literalEnd?_of_whole hend hne (startsFraction_of_not_isDigit hno)
      · rw [hpoint] at hrest
        obtain ⟨-, -, hdigits⟩ := look_of_drop hrest
        rw [literalEnd?_of_fraction hend hne (startsFraction_of_isDigit hrest hc)
          (digitsEnd_of_drop hdigits)]
        simp only [Option.map_some, List.length_append, List.length_cons]
        congr 2
        omega

/-! ## 3. The longest literal at a place -/

theorem IsLiteralAt.start_lt (h : IsLiteralAt row start stop) : start < stop := by
  refine Nat.lt_of_not_le fun hle => ?_
  have hempty : (row.extract start stop).toList = [] := by
    rw [Array.toList_extract, List.extract_eq_take_drop, Nat.sub_eq_zero_of_le hle, List.take_zero]
  exact h.isLiteral.ne_nil hempty

/-- A literal stands at a place exactly if what is left of the row from there on starts with it. -/
theorem isLiteralAt_iff : IsLiteralAt row start stop ↔
    ∃ w u, IsLiteral w ∧ row.toList.drop start = w ++ u ∧ stop = start + w.length := by
  constructor
  · intro h
    have hlt := h.start_lt
    have hle := h.stop_le
    have hw := h.isLiteral
    rw [Array.toList_extract, List.extract_eq_take_drop] at hw
    refine ⟨_, (row.toList.drop start).drop (stop - start), hw, ?_, ?_⟩
    · rw [List.take_append_drop]
    · rw [List.length_take, List.length_drop, Array.length_toList]
      omega
  · intro h
    obtain ⟨w, u, hw, hleft, rfl⟩ := h
    have hpos := List.length_pos_iff.2 hw.ne_nil
    have hlength := congrArg List.length hleft
    rw [List.length_drop, Array.length_toList, List.length_append] at hlength
    refine ⟨by omega, ?_⟩
    rw [(extract_of_drop hleft).1]
    exact hw

/-- **What is cut off ends at the greatest place up to which a literal stands.** -/
theorem isGreatest_of_literal? {w r : Text} (h : literal? (row.toList.drop start) = some (w, r)) :
    IsGreatest {stop | IsLiteralAt row start stop} (start + w.length) := by
  refine ⟨isLiteralAt_iff.2 ⟨w, r, isLiteral_of_literal? h, (literal?_append h).symm, rfl⟩, ?_⟩
  intro stop hstop
  obtain ⟨v, u, hv, hleft, rfl⟩ := isLiteralAt_iff.1 hstop
  rw [hleft] at h
  exact Nat.add_le_add_left (length_le_of_literal? hv h) start

/-- **The scan at a place of a row, inside or behind it.** It looks at no place outside the row. It
    finds nothing exactly if no digit stands at its place. Else it finds the end of the longest
    literal there, which is behind its place and not behind the row. So it cuts off what the cut of
    the text that is left cuts off. -/
theorem literalEnd?_isGreatest (row : Array Char) (start : Nat) :
    ∃ found, literalEnd? row start = .ok found ∧
      (found = none ↔ ∀ c ∈ row[start]?, c.isDigit = false) ∧
      (∀ stop, found = some stop ↔ IsGreatest {place | IsLiteralAt row start place} stop) ∧
      (∀ stop ∈ found, start < stop ∧ stop ≤ row.size) ∧
      literal? (row.toList.drop start) =
        found.map fun stop => ((row.extract start stop).toList, row.toList.drop stop) := by
  refine ⟨_, literalEnd?_eq row start, ?_, ?_, ?_, ?_⟩
  · rw [Option.map_eq_none_iff, literal?_eq_none_iff, List.head?_drop, Array.getElem?_toList]
  · intro stop
    constructor
    · intro h
      obtain ⟨⟨w, r⟩, hcut, rfl⟩ := Option.map_eq_some_iff.1 h
      exact isGreatest_of_literal? hcut
    · intro h
      obtain ⟨v, u, hv, hleft, -⟩ := isLiteralAt_iff.1 h.1
      obtain ⟨w, r, hcut⟩ := hv.exists_literal? u
      rw [← hleft] at hcut
      rw [hcut, h.unique (isGreatest_of_literal? hcut)]
      rfl
  · intro stop h
    obtain ⟨⟨w, r⟩, hcut, rfl⟩ := Option.map_eq_some_iff.1 h
    have hat : IsLiteralAt row start (start + w.length) := (isGreatest_of_literal? hcut).1
    exact ⟨hat.start_lt, hat.stop_le⟩
  · cases hcut : literal? (row.toList.drop start) with
    | none => rfl
    | some p =>
        obtain ⟨hw, hr⟩ := extract_of_drop (literal?_append hcut).symm
        simp only [Option.map_some, hw, hr]

/-- Of two points only the first has digits around it, and behind the second the row ends. -/
example : literalEnd? #['1', '.', '2', '.'] 0 = .ok (some 3) := by
  decide +kernel

end Calculator

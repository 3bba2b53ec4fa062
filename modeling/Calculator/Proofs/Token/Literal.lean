import Calculator.Number.Decimal
import Calculator.Token.Cut

/-!
# Literals in a text

Where a literal ends is decided by what follows it: the cut does not look past a character that is
neither a digit nor a point (`literal?_append_of_isBoundary`), so a literal before such a character
is cut off whole (`IsLiteral.literal?_append`). Every literal reads as a number, with a minus sign
or without (`IsLiteral.exists_ofText?`).
-/

namespace Calculator

/-! ## 1. Where a literal ends -/

/-- No literal goes on into the text: it does not start with a digit or a point. -/
def IsBoundary (u : Text) : Prop :=
  ∀ c ∈ u.head?, Token.isDigitOrPoint c = false

theorem isBoundary_nil : IsBoundary [] := by
  simp [IsBoundary]

theorem isBoundary_cons {c : Char} {u : Text} :
    IsBoundary (c :: u) ↔ c.isDigit = false ∧ c ≠ '.' := by
  simp [IsBoundary, Token.isDigitOrPoint]

theorem IsBoundary.takeWhile_isDigit {u : Text} (hu : IsBoundary u) :
    u.takeWhile Char.isDigit = [] := by
  cases u with
  | nil => rfl
  | cons c u => simp [(isBoundary_cons.1 hu).1]

theorem IsBoundary.dropWhile_isDigit {u : Text} (hu : IsBoundary u) :
    u.dropWhile Char.isDigit = u := by
  cases u with
  | nil => rfl
  | cons c u => simp [(isBoundary_cons.1 hu).1]

theorem takeWhile_append_of_isBoundary {u : Text} (hu : IsBoundary u) (s : Text) :
    (s ++ u).takeWhile Char.isDigit = s.takeWhile Char.isDigit := by
  induction s with
  | nil => exact hu.takeWhile_isDigit
  | cons c s ih =>
      rw [List.cons_append, List.takeWhile_cons, List.takeWhile_cons, ih]

theorem dropWhile_append_of_isBoundary {u : Text} (hu : IsBoundary u) (s : Text) :
    (s ++ u).dropWhile Char.isDigit = s.dropWhile Char.isDigit ++ u := by
  induction s with
  | nil => exact hu.dropWhile_isDigit
  | cons c s ih =>
      rw [List.cons_append, List.dropWhile_cons, List.dropWhile_cons, ih]
      split <;> rfl

/-- **The cut of a literal does not look past a boundary.** -/
theorem literal?_append_of_isBoundary {u : Text} (hu : IsBoundary u) (s : Text) :
    literal? (s ++ u) = (literal? s).map fun (w, r) => (w, r ++ u) := by
  have hd := dropWhile_append_of_isBoundary hu s
  unfold literal?
  simp only [takeWhile_append_of_isBoundary hu, hd]
  by_cases hw : (s.takeWhile Char.isDigit).isEmpty = true
  · simp only [hw, if_true, Option.map_none]
  · simp only [hw]
    -- only what stands right behind the digits is looked at, and the point among that
    rcases hs : s.dropWhile Char.isDigit with _ | ⟨d, _ | ⟨c, r⟩⟩
    · cases u with
      | nil => rfl
      | cons c u =>
          have hc := (isBoundary_cons.1 hu).2
          simp [hc]
    · by_cases hp : d = '.'
      · subst hp
        cases u with
        | nil => rfl
        | cons c u => simp [(isBoundary_cons.1 hu).1]
      · simp [hp]
    · by_cases hp : d = '.'
      · subst hp
        by_cases hc : c.isDigit = true
        · have ht := takeWhile_append_of_isBoundary hu (c :: r)
          have hd' := dropWhile_append_of_isBoundary hu (c :: r)
          rw [List.cons_append] at ht hd'
          simp [hc, ht, hd']
        · simp [hc]
      · simp [hp]

theorem IsDigits.takeWhile_isDigit {t : Text} (h : IsDigits t) : t.takeWhile Char.isDigit = t := by
  have happ : (t ++ []).takeWhile Char.isDigit = t ++ [].takeWhile Char.isDigit :=
    List.takeWhile_append_of_pos h.2
  simpa using happ

theorem IsDigits.dropWhile_isDigit {t : Text} (h : IsDigits t) : t.dropWhile Char.isDigit = [] :=
  Text.dropWhile_eq_nil.2 h.2

theorem IsDigits.exists_cons {t : Text} (h : IsDigits t) :
    ∃ c r, t = c :: r ∧ c.isDigit = true := by
  obtain ⟨hne, hall⟩ := h
  cases t with
  | nil => exact absurd rfl hne
  | cons c r => exact ⟨c, r, rfl, hall c (by simp)⟩

theorem takeWhile_append_point {s : Text} (h : IsDigits s) (u : Text) :
    (s ++ '.' :: u).takeWhile Char.isDigit = s := by
  rw [List.takeWhile_append_of_pos h.2]
  simp

theorem dropWhile_append_point {s : Text} (h : IsDigits s) (u : Text) :
    (s ++ '.' :: u).dropWhile Char.isDigit = '.' :: u := by
  rw [List.dropWhile_append_of_pos h.2]
  simp

theorem IsLiteral.literal?_self {w : Text} (h : IsLiteral w) : literal? w = some (w, []) := by
  rcases h with h | ⟨whole, fraction, hw, hf, rfl⟩
  · have hne := h.1
    simp [literal?, h.takeWhile_isDigit, h.dropWhile_isDigit, hne]
  · have hne := hw.1
    have ht := hf.takeWhile_isDigit
    have hd := hf.dropWhile_isDigit
    obtain ⟨c, r, rfl, hc⟩ := hf.exists_cons
    simp only [literal?, takeWhile_append_point hw, dropWhile_append_point hw, ht, hd, hc, if_true]
    simp [hne]

/-- **A literal before a boundary is cut off whole.** -/
theorem IsLiteral.literal?_append {w u : Text} (h : IsLiteral w) (hu : IsBoundary u) :
    literal? (w ++ u) = some (w, u) := by
  rw [literal?_append_of_isBoundary hu, h.literal?_self]
  rfl

/-- Behind a literal that was cut off no digit follows. -/
theorem isDigit_rest_of_literal? {t w r : Text} (h : literal? t = some (w, r)) :
    ∀ c ∈ r.head?, c.isDigit = false := by
  intro c hc
  have hstop : ∀ s : Text, ∀ c ∈ (s.dropWhile Char.isDigit).head?, c.isDigit = false := by
    intro s c hc
    simpa [Option.mem_def.1 hc] using List.head?_dropWhile_not Char.isDigit s
  obtain ⟨-, ⟨-, rfl⟩ | ⟨c, u, -, -, -, rfl⟩⟩ := literal?_cases h
  · exact hstop t c hc
  · exact hstop _ _ hc

theorem IsLiteral.exists_cons {w : Text} (h : IsLiteral w) :
    ∃ c r, w = c :: r ∧ c.isDigit = true := by
  rcases h with h | ⟨whole, fraction, hw, -, rfl⟩
  · exact h.exists_cons
  · obtain ⟨c, r, rfl, hc⟩ := hw.exists_cons
    exact ⟨c, r ++ '.' :: fraction, rfl, hc⟩

/-- A literal is made of digits and points. -/
theorem IsLiteral.isDigitOrPoint {w : Text} (h : IsLiteral w) :
    ∀ c ∈ w, Token.isDigitOrPoint c = true := by
  intro c hc
  rcases h with h | ⟨whole, fraction, hw, hf, rfl⟩
  · simp [Token.isDigitOrPoint, h.2 c hc]
  · rcases List.mem_append.1 hc with hc | hc
    · simp [Token.isDigitOrPoint, hw.2 c hc]
    · rcases List.mem_cons.1 hc with rfl | hc
      · rfl
      · simp [Token.isDigitOrPoint, hf.2 c hc]

/-! ## 2. The number of a literal -/

theorem toLower_of_isDigit {c : Char} (h : c.isDigit = true) : c.toLower = c := by
  have hall : ∀ d < 10, (digitChar d).toLower = digitChar d := by decide
  obtain ⟨d, hd, rfl⟩ := exists_digitChar h
  exact hall d hd

namespace Numeral

theorem splitSign_of_isDigit {c : Char} {r : Text} (h : c.isDigit = true) :
    splitSign (c :: r) = (false, c :: r) := by
  unfold splitSign
  split
  · next heq =>
      obtain ⟨rfl, -⟩ := List.cons.inj heq
      simp at h
  · next heq =>
      obtain ⟨rfl, -⟩ := List.cons.inj heq
      simp at h
  · rfl

theorem exists_significand? {w : Text} (h : IsLiteral w) : ∃ d, significand? w = some (d, []) := by
  rcases h with h | ⟨whole, fraction, hw, hf, rfl⟩
  · have hne := h.1
    simp [significand?, h.takeWhile_isDigit, h.dropWhile_isDigit, hne]
  · have hne := hw.1
    simp [significand?, takeWhile_append_point hw, dropWhile_append_point hw,
      hf.dropWhile_isDigit, hne]

theorem exists_decimal? {w : Text} (h : IsLiteral w) : ∃ d, decimal? w = some d := by
  obtain ⟨d, hd⟩ := exists_significand? h
  exact ⟨_, by rw [decimal?, hd]; rfl⟩

/-- A text that starts with a digit is none of the words. -/
theorem ofText?_of_isDigit {t r : Text} {c : Char} {negative : Bool}
    (hs : splitSign t = (negative, c :: r)) (hc : c.isDigit = true) :
    ofText? t = (decimal? (c :: r)).map (.decimal negative) := by
  have hlow := toLower_of_isDigit hc
  have hn : c ≠ 'n' := by
    rintro rfl
    simp at hc
  have hi : c ≠ 'i' := by
    rintro rfl
    simp at hc
  simp [ofText?, hs, hlow, hn, hi]

theorem ofText?_of_splitSign {t w : Text} {negative : Bool} (hs : splitSign t = (negative, w))
    (h : IsLiteral w) : ∃ d, ofText? t = some (.decimal negative d) := by
  obtain ⟨d, hd⟩ := exists_decimal? h
  obtain ⟨c, r, rfl, hc⟩ := h.exists_cons
  exact ⟨d, by rw [ofText?_of_isDigit hs hc, hd]; rfl⟩

end Numeral

/-- **Every literal reads as a number, with a minus sign or without.** -/
theorem IsLiteral.exists_ofText? {f : BinaryFormat} {w : Text} (h : IsLiteral w) :
    (∃ x : Number f, Number.ofText? w = some x) ∧
      ∃ x : Number f, Number.ofText? ('-' :: w) = some x := by
  obtain ⟨c, r, hcons, hc⟩ := h.exists_cons
  have hplain : Numeral.splitSign w = (false, w) := by
    rw [hcons, Numeral.splitSign_of_isDigit hc]
  have hminus : Numeral.splitSign ('-' :: w) = (true, w) := rfl
  obtain ⟨d, hd⟩ := Numeral.ofText?_of_splitSign hplain h
  obtain ⟨d', hd'⟩ := Numeral.ofText?_of_splitSign hminus h
  constructor
  · exact ⟨_, by rw [Number.ofText?, hd]; rfl⟩
  · exact ⟨_, by rw [Number.ofText?, hd']; rfl⟩

end Calculator

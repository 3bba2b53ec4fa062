import Calculator.Text

/-!
# Brackets of a text

Brackets are counted as they stand, whatever else is in the text. A text can be at fault in two
ways: a beginning of it closes more brackets than it opens (`ClosesUnopened`), or the whole of it
opens more than it closes (`LeavesOpen`). `Overcloses` is the first with some brackets open before,
so that a text can be followed from one character to the next (`overcloses_leftBracket`,
`overcloses_rightBracket`, `overcloses_append`).
-/

namespace Calculator

namespace Text

/-- A beginning of the text closes more brackets than it opens. -/
def ClosesUnopened (t : Text) : Prop :=
  ∃ p, p <+: t ∧ p.count '(' < p.count ')'

/-- The text opens more brackets than it closes. -/
def LeavesOpen (t : Text) : Prop :=
  t.count ')' < t.count '('

/-- A beginning of the text closes more brackets than it opens and `opened` before it. -/
def Overcloses (opened : Nat) (t : Text) : Prop :=
  ∃ p, p <+: t ∧ opened + p.count '(' < p.count ')'

theorem overcloses_zero {t : Text} : Overcloses 0 t ↔ ClosesUnopened t := by
  simp only [Overcloses, ClosesUnopened, Nat.zero_add]

theorem not_overcloses_nil (opened : Nat) : ¬ Overcloses opened [] := by
  rintro ⟨p, hp, hlt⟩
  rw [List.prefix_nil.1 hp] at hlt
  exact Nat.not_lt_zero _ hlt

/-- The beginnings of a text that are not empty start with its first character. -/
theorem overcloses_cons {opened : Nat} {c : Char} {t : Text} :
    Overcloses opened (c :: t) ↔
      ∃ p, p <+: t ∧ opened + (c :: p).count '(' < (c :: p).count ')' := by
  constructor
  · rintro ⟨p, hp, hlt⟩
    rcases List.prefix_cons_iff.1 hp with rfl | ⟨q, rfl, hq⟩
    · exact absurd hlt (Nat.not_lt_zero _)
    · exact ⟨q, hq, hlt⟩
  · rintro ⟨p, hp, hlt⟩
    exact ⟨c :: p, List.prefix_cons_iff.2 (Or.inr ⟨p, rfl, hp⟩), hlt⟩

theorem overcloses_leftBracket {opened : Nat} {t : Text} :
    Overcloses opened ('(' :: t) ↔ Overcloses (opened + 1) t := by
  have hcount : ∀ p : Text, opened + ('(' :: p).count '(' < ('(' :: p).count ')' ↔
      opened + 1 + p.count '(' < p.count ')' := by
    intro p
    rw [List.count_cons_self, List.count_cons_of_ne (by decide)]
    omega
  rw [overcloses_cons]
  simp only [hcount]
  exact Iff.rfl

theorem overcloses_rightBracket {opened : Nat} {t : Text} :
    Overcloses opened (')' :: t) ↔ opened = 0 ∨ Overcloses (opened - 1) t := by
  have hcount : ∀ p : Text, opened + (')' :: p).count '(' < (')' :: p).count ')' ↔
      opened + p.count '(' < p.count ')' + 1 := by
    intro p
    rw [List.count_cons_self, List.count_cons_of_ne (by decide)]
  rw [overcloses_cons]
  simp only [hcount]
  constructor
  · rintro ⟨p, hp, hlt⟩
    rcases Nat.eq_zero_or_pos opened with h | h
    · exact Or.inl h
    · exact Or.inr ⟨p, hp, by omega⟩
  · rintro (rfl | ⟨p, hp, hlt⟩)
    · exact ⟨[], List.nil_prefix, by decide⟩
    · exact ⟨p, hp, by omega⟩

/-- **Characters that are no brackets do not count.** -/
theorem overcloses_append {opened : Nat} {s t : Text} (hs : ∀ c ∈ s, c ≠ '(' ∧ c ≠ ')') :
    Overcloses opened (s ++ t) ↔ Overcloses opened t := by
  induction s with
  | nil => exact Iff.rfl
  | cons c s ih =>
      obtain ⟨hl, hr⟩ := hs c (by simp)
      rw [← ih fun c' hc' => hs c' (by simp [hc']), List.cons_append, overcloses_cons]
      simp only [List.count_cons_of_ne hl, List.count_cons_of_ne hr]
      exact Iff.rfl

end Text

end Calculator

import Calculator.Text

/-!
# Literals

A literal is a run of digits, or two runs of digits with one point between them. `literal?` cuts
the longest literal off the head of a text. It loses nothing (`literal?_append`), there is none
exactly if the text does not start with a digit (`literal?_eq_none_iff`), and what is left is
shorter (`literal?_length_lt`).
-/

namespace Calculator

/-- The text is a run of digits. -/
def IsDigits (t : Text) : Prop :=
  t ≠ [] ∧ ∀ c ∈ t, c.isDigit = true

instance (t : Text) : Decidable (IsDigits t) :=
  decidable_of_iff (t.isEmpty = false ∧ t.all Char.isDigit = true) (by simp [IsDigits])

/-- The text is a literal. -/
def IsLiteral (t : Text) : Prop :=
  IsDigits t ∨ ∃ whole fraction, IsDigits whole ∧ IsDigits fraction ∧ t = whole ++ '.' :: fraction

/-- The longest literal at the head of a text, and what follows it. -/
def literal? (t : Text) : Option (Text × Text) :=
  let whole := t.takeWhile Char.isDigit
  let rest := t.dropWhile Char.isDigit
  if whole.isEmpty then none
  else
    match rest with
    | '.' :: c :: r =>
        if c.isDigit then
          some (whole ++ '.' :: (c :: r).takeWhile Char.isDigit, (c :: r).dropWhile Char.isDigit)
        else some (whole, rest)
    | _ => some (whole, rest)

/-- There is a literal exactly if the text starts with a digit. -/
theorem literal?_eq_none_iff {t : Text} : literal? t = none ↔ ∀ c ∈ t.head?, c.isDigit = false := by
  cases t with
  | nil => simp [literal?]
  | cons c t =>
      cases hc : c.isDigit with
      | false => simp [literal?, hc]
      | true =>
          have hne : ((c :: t).takeWhile Char.isDigit).isEmpty = false := by simp [hc]
          simp only [literal?, hne, Bool.false_eq_true, if_false]
          split
          · split <;> simp [hc]
          · simp [hc]

/-- The two forms of what is cut off: the digits at the head, or these with a point and the digits
    behind it. -/
theorem literal?_cases {t w r : Text} (h : literal? t = some (w, r)) :
    t.takeWhile Char.isDigit ≠ [] ∧
      ((w = t.takeWhile Char.isDigit ∧ r = t.dropWhile Char.isDigit) ∨
        ∃ c u, t.dropWhile Char.isDigit = '.' :: c :: u ∧ c.isDigit = true ∧
          w = t.takeWhile Char.isDigit ++ '.' :: (c :: u).takeWhile Char.isDigit ∧
          r = (c :: u).dropWhile Char.isDigit) := by
  simp only [literal?] at h
  split at h
  · simp at h
  · next hne =>
      refine ⟨by simpa using hne, ?_⟩
      split at h
      · next c u hrest =>
          split at h
          · next hc =>
              obtain ⟨rfl, rfl⟩ := Prod.mk.inj (Option.some.inj h)
              exact Or.inr ⟨c, u, hrest, hc, rfl, rfl⟩
          · obtain ⟨rfl, rfl⟩ := Prod.mk.inj (Option.some.inj h)
            exact Or.inl ⟨rfl, rfl⟩
      · obtain ⟨rfl, rfl⟩ := Prod.mk.inj (Option.some.inj h)
        exact Or.inl ⟨rfl, rfl⟩

/-- **Literal and rest are the text.** -/
theorem literal?_append {t w r : Text} (h : literal? t = some (w, r)) : w ++ r = t := by
  have hsplit : t.takeWhile Char.isDigit ++ t.dropWhile Char.isDigit = t :=
    List.takeWhile_append_dropWhile
  obtain ⟨-, ⟨rfl, rfl⟩ | ⟨c, u, hrest, -, rfl, rfl⟩⟩ := literal?_cases h
  · exact hsplit
  · rw [List.append_assoc, List.cons_append, List.takeWhile_append_dropWhile, ← hrest, hsplit]

theorem mem_takeWhile_isDigit {t : Text} : ∀ c ∈ t.takeWhile Char.isDigit, c.isDigit = true :=
  fun _ hc => (List.all_eq_true.1 List.all_takeWhile) _ hc

/-- What is cut off is a literal. -/
theorem isLiteral_of_literal? {t w r : Text} (h : literal? t = some (w, r)) : IsLiteral w := by
  obtain ⟨hne, hforms⟩ := literal?_cases h
  have hwhole : IsDigits (t.takeWhile Char.isDigit) := ⟨hne, mem_takeWhile_isDigit⟩
  obtain ⟨rfl, -⟩ | ⟨c, u, -, hc, rfl, -⟩ := hforms
  · exact Or.inl hwhole
  · refine Or.inr ⟨_, _, hwhole, ⟨?_, mem_takeWhile_isDigit⟩, rfl⟩
    simp [hc]

theorem IsLiteral.ne_nil {t : Text} : IsLiteral t → t ≠ []
  | .inl h => h.1
  | .inr ⟨_, _, _, _, h⟩ => by rw [h]; simp

/-- What follows a literal is shorter than the text. -/
theorem literal?_length_lt {t w r : Text} (h : literal? t = some (w, r)) : r.length < t.length := by
  have hw := List.length_pos_iff.2 (isLiteral_of_literal? h).ne_nil
  have := congrArg List.length (literal?_append h)
  rw [List.length_append] at this
  omega

end Calculator

import Calculator.Window.Keypad

/-!
# What keys do to an entry

A key adds its symbol to the symbols of any entry, whatever spaces it adds or takes away
(`clean_insert`); DEL takes the last symbol, unless a blank that is no space stands there
(`clean_delete`). An entry that only the keypad writes is tidy (`IsTidy`): it starts with no blank,
and each of its blanks is one space between symbols or behind the last. Such an entry stays tidy
(`IsTyped.insert`, `IsTyped.delete`).
-/

namespace Calculator

/-- No key writes a blank. -/
theorem Key.isBlank_symbol (k : Key) : isBlank k.symbol = false := by
  cases k with
  | digit d => exact (by decide : ∀ d : Fin 10, isBlank (Key.digit d).symbol = false) d
  | point => rfl
  | leftBracket => rfl
  | rightBracket => rfl
  | operator op => cases op <;> rfl

theorem ne_space_of_isBlank {c : Char} (h : isBlank c = false) : c ≠ ' ' := by
  rintro rfl
  rw [isBlank_space] at h
  exact Bool.false_ne_true h.symm

theorem Text.clean_concat {c : Char} (h : isBlank c = false) (t : Text) :
    clean (t ++ [c]) = clean t ++ [c] := by
  simp [clean, h]

theorem Text.clean_concat_space (t : Text) : clean (t ++ [' ']) = clean t := by
  simp [clean, isBlank_space]

namespace Entry

open Text (clean clean_append clean_concat clean_concat_space)

/-! ## 1. Spaces at the end -/

theorem dropSpaces_concat_space (t : Text) : dropSpaces (t ++ [' ']) = dropSpaces t := by
  simp [dropSpaces, Text.dropTrailing]

theorem dropSpaces_concat {c : Char} (h : c ≠ ' ') (t : Text) :
    dropSpaces (t ++ [c]) = t ++ [c] :=
  Text.dropTrailing_concat t (by simpa using h)

theorem dropSpaces_concat_pair {c : Char} (h : c ≠ ' ') (t : Text) :
    dropSpaces (t ++ [c, ' ']) = t ++ [c] := by
  have hsplit : t ++ [c, ' '] = (t ++ [c]) ++ [' '] := by simp
  rw [hsplit, dropSpaces_concat_space, dropSpaces_concat h]

/-- Only spaces are dropped, and all that stand at the end. -/
theorem exists_dropSpaces (t : Text) :
    ∃ n, t = dropSpaces t ++ List.replicate n ' ' ∧ ∀ c ∈ (dropSpaces t).getLast?, c ≠ ' ' := by
  induction hn : t.length generalizing t with
  | zero =>
      obtain rfl := List.length_eq_zero_iff.1 hn
      exact ⟨0, rfl, by simp [dropSpaces, Text.dropTrailing]⟩
  | succ n ih =>
      rcases List.eq_nil_or_concat t with rfl | ⟨s, c, rfl⟩
      · simp at hn
      · rw [List.concat_eq_append] at hn ⊢
        by_cases hc : c = ' '
        · subst hc
          obtain ⟨k, hs, hlast⟩ := ih s (by simpa using hn)
          rw [dropSpaces_concat_space]
          refine ⟨k + 1, ?_, hlast⟩
          rw [List.replicate_succ', ← List.append_assoc, ← hs]
        · rw [dropSpaces_concat hc]
          refine ⟨0, (List.append_nil _).symm, fun d hd => ?_⟩
          simp at hd
          rwa [← hd]

theorem dropSpaces_dropSpaces (t : Text) : dropSpaces (dropSpaces t) = dropSpaces t := by
  obtain ⟨-, -, hlast⟩ := exists_dropSpaces t
  rcases List.eq_nil_or_concat (dropSpaces t) with h | ⟨s, c, h⟩
  · rw [h]
    rfl
  · rw [List.concat_eq_append] at h
    rw [h] at hlast ⊢
    exact dropSpaces_concat (hlast c (by simp)) s

theorem clean_dropSpaces (t : Text) : (dropSpaces t).clean = t.clean := by
  obtain ⟨n, ht, -⟩ := exists_dropSpaces t
  have hclean : clean (List.replicate n ' ') = [] := by simp [clean, isBlank_space]
  conv => rhs; rw [ht, clean_append, hclean, List.append_nil]

/-! ## 2. Symbols -/

/-- **A key adds its symbol to the symbols of the entry.** -/
theorem clean_insert (t : Text) (k : Key) : (insert t k).clean = t.clean ++ [k.symbol] := by
  have hk := k.isBlank_symbol
  cases k with
  | digit d => exact clean_concat hk t
  | point => exact clean_concat hk t
  | leftBracket =>
      rw [insert]
      split
      · refine (clean_concat hk _).trans ?_
        rw [clean_concat_space]
      · exact clean_concat hk t
  | rightBracket =>
      refine (clean_concat hk _).trans ?_
      rw [clean_dropSpaces]
  | operator op =>
      have hkept : clean (if (dropSpaces t).isEmpty then [] else dropSpaces t ++ [' ']) =
          t.clean := by
        rw [← clean_dropSpaces t]
        split
        · next h =>
            rw [List.isEmpty_iff.1 h]
        · exact clean_concat_space _
      have hend : clean [op.symbol, ' '] = [op.symbol] := by
        have hop : isBlank op.symbol = false := hk
        simp [clean, hop, isBlank_space]
      rw [insert, clean_append, hkept, hend]
      rfl

/-- DEL takes what stands before the spaces at the end, and the spaces before that. -/
theorem delete_of_dropSpaces {t s : Text} {c : Char} (h : dropSpaces t = s ++ [c]) :
    delete t = dropSpaces s := by
  rw [delete, h, List.dropLast_concat]

theorem delete_of_dropSpaces_eq_nil {t : Text} (h : dropSpaces t = []) : delete t = [] := by
  rw [delete, h]
  rfl

/-- **DEL takes the last symbol**, unless a blank that is no space stands behind it. -/
theorem clean_delete {t : Text} (h : ∀ c ∈ (dropSpaces t).getLast?, isBlank c = false) :
    (delete t).clean = t.clean.dropLast := by
  rw [← clean_dropSpaces t]
  rcases List.eq_nil_or_concat (dropSpaces t) with hs | ⟨s, c, hs⟩
  · rw [delete_of_dropSpaces_eq_nil hs, hs]
    rfl
  · rw [List.concat_eq_append] at hs
    have hc : isBlank c = false := h c (by simp [hs])
    rw [delete_of_dropSpaces hs, clean_dropSpaces, hs, clean_concat hc, List.dropLast_concat]

/-! ## 3. Tidy entries -/

/-- The entry starts with no blank, and each blank in it is one space behind a symbol. -/
inductive IsTidy : Text → Prop where
  | nil : IsTidy []
  | symbol {t : Text} {c : Char} (h : IsTidy t) (hc : isBlank c = false) : IsTidy (t ++ [c])
  | space {t : Text} {c : Char} (h : IsTidy t) (hc : isBlank c = false) : IsTidy (t ++ [c, ' '])

theorem IsTidy.head? {t : Text} (h : IsTidy t) : ∀ c ∈ t.head?, isBlank c = false := by
  have hkeep : ∀ {s : Text} {c : Char} {u : Text}, (∀ d ∈ s.head?, isBlank d = false) →
      isBlank c = false → ∀ d ∈ (s ++ c :: u).head?, isBlank d = false := by
    intro s c u hs hc d hd
    cases s with
    | nil =>
        obtain rfl : c = d := by simpa using hd
        exact hc
    | cons b s => exact hs d hd
  induction h with
  | nil => simp
  | symbol _ hc ih => exact hkeep ih hc
  | space _ hc ih => exact hkeep ih hc

theorem concat_eq_append_pair {s pre post : Text} {b c d : Char}
    (h : s ++ [b] = pre ++ c :: d :: post) :
    (s = pre ++ [c] ∧ b = d) ∨ ∃ post', s = pre ++ c :: d :: post' := by
  rcases List.eq_nil_or_concat post with rfl | ⟨post', b', rfl⟩
  · have h : s ++ [b] = (pre ++ [c]) ++ [d] := by simpa using h
    obtain ⟨hs, hb⟩ := List.append_inj' h rfl
    exact Or.inl ⟨hs, List.singleton_inj.1 hb⟩
  · have h : s ++ [b] = (pre ++ c :: d :: post') ++ [b'] := by simpa using h
    exact Or.inr ⟨post', (List.append_inj' h rfl).1⟩

/-- In a tidy entry no two blanks stand side by side. -/
theorem IsTidy.apart {t : Text} (h : IsTidy t) {pre post : Text} {c d : Char}
    (ht : t = pre ++ c :: d :: post) : ¬ (isBlank c = true ∧ isBlank d = true) := by
  rintro ⟨hc, hd⟩
  -- a symbol is none of the two, so they stand before it
  have hsymbol : ∀ {b : Char}, isBlank b = false → b ≠ c ∧ b ≠ d := by
    intro b hb
    constructor
    · rintro rfl
      exact Bool.false_ne_true (hb.symm.trans hc)
    · rintro rfl
      exact Bool.false_ne_true (hb.symm.trans hd)
  induction h generalizing post with
  | nil => simp at ht
  | symbol _ hb ih =>
      rcases concat_eq_append_pair ht with ⟨-, hbd⟩ | ⟨post', hs⟩
      · exact (hsymbol hb).2 hbd
      · exact ih hs
  | @space s b _ hb ih =>
      have ht : (s ++ [b]) ++ [' '] = pre ++ c :: d :: post := by simpa using ht
      rcases concat_eq_append_pair ht with ⟨hs, -⟩ | ⟨post', hs⟩
      · exact (hsymbol hb).1 (List.singleton_inj.1 (List.append_inj' hs rfl).2)
      · rcases concat_eq_append_pair hs with ⟨-, hbd⟩ | ⟨post'', hs⟩
        · exact (hsymbol hb).2 hbd
        · exact ih hs

/-- Without the spaces at its end a tidy entry is empty or ends with a symbol. -/
theorem IsTidy.dropSpaces_cases {t : Text} (h : IsTidy t) :
    dropSpaces t = [] ∨
      ∃ s c, dropSpaces t = s ++ [c] ∧ IsTidy s ∧ isBlank c = false := by
  cases h with
  | nil => exact Or.inl rfl
  | @symbol s c h hc =>
      exact Or.inr ⟨s, c, dropSpaces_concat (ne_space_of_isBlank hc) s, h, hc⟩
  | @space s c h hc =>
      exact Or.inr ⟨s, c, dropSpaces_concat_pair (ne_space_of_isBlank hc) s, h, hc⟩

theorem IsTidy.dropSpaces {t : Text} (h : IsTidy t) : IsTidy (dropSpaces t) := by
  rcases h.dropSpaces_cases with hs | ⟨s, c, hs, htidy, hc⟩
  · rw [hs]
    exact .nil
  · rw [hs]
    exact htidy.symbol hc

/-- What the keypad writes: a tidy entry with no space behind an operand at its end. -/
structure IsTyped (t : Text) : Prop where
  tidy : IsTidy t
  joined : endsOperand t = true → Entry.dropSpaces t = t

theorem isTyped_nil : IsTyped [] :=
  ⟨.nil, fun _ => rfl⟩

theorem isTyped_symbol {t : Text} {c : Char} (h : IsTidy t) (hc : isBlank c = false) :
    IsTyped (t ++ [c]) :=
  ⟨h.symbol hc, fun _ => dropSpaces_concat (ne_space_of_isBlank hc) t⟩

theorem endsOperand_operator (t : Text) (op : Operator) :
    endsOperand (t ++ [op.symbol, ' ']) = false := by
  have hblank : isBlank op.symbol = false := (Key.operator op).isBlank_symbol
  have hend : op.symbol.isDigit = false ∧ op.symbol ≠ ')' := by
    cases op <;> decide
  simp [endsOperand, isBlank_space, hblank, hend]

/-- **Keys write typed entries.** -/
theorem IsTyped.insert {t : Text} (h : IsTyped t) (k : Key) : IsTyped (insert t k) := by
  have hk := k.isBlank_symbol
  cases k with
  | digit d => exact isTyped_symbol h.tidy hk
  | point => exact isTyped_symbol h.tidy hk
  | leftBracket =>
      rw [Entry.insert]
      split
      · next hend =>
          refine isTyped_symbol ?_ hk
          rcases h.tidy.dropSpaces_cases with hs | ⟨s, c, hs, htidy, hc⟩
          · rw [h.joined hend] at hs
            rw [hs] at hend
            exact absurd hend Bool.false_ne_true
          · rw [h.joined hend] at hs
            rw [hs, List.append_assoc]
            exact htidy.space hc
      · exact isTyped_symbol h.tidy hk
  | rightBracket => exact isTyped_symbol h.tidy.dropSpaces hk
  | operator op =>
      have hop : isBlank op.symbol = false := hk
      rw [Entry.insert]
      refine ⟨IsTidy.space ?_ hop, fun hend => ?_⟩
      · split
        · exact .nil
        · next hne =>
            rcases h.tidy.dropSpaces_cases with hs | ⟨s, c, hs, htidy, hc⟩
            · exact absurd (by rw [hs]; rfl) hne
            · rw [hs, List.append_assoc]
              exact htidy.space hc
      · rw [endsOperand_operator] at hend
        exact absurd hend Bool.false_ne_true

theorem IsTyped.delete {t : Text} (h : IsTyped t) : IsTyped (delete t) := by
  rcases h.tidy.dropSpaces_cases with hs | ⟨s, c, hs, htidy, hc⟩
  · rw [delete_of_dropSpaces_eq_nil hs]
    exact isTyped_nil
  · rw [delete_of_dropSpaces hs]
    exact ⟨htidy.dropSpaces, fun _ => dropSpaces_dropSpaces s⟩

/-- DEL takes the last symbol of what the keypad wrote. -/
theorem IsTyped.clean_delete {t : Text} (h : IsTyped t) :
    (Entry.delete t).clean = t.clean.dropLast := by
  refine Entry.clean_delete fun c hc => ?_
  rcases h.tidy.dropSpaces_cases with hs | ⟨s, d, hs, -, hd⟩
  · rw [hs] at hc
    simp at hc
  · rw [hs] at hc
    obtain rfl : d = c := by simpa using hc
    exact hd

end Entry

end Calculator

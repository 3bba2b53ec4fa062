/-!
# Texts and their blanks

A text is the list of its characters, so a position or a length counts characters. This file fixes
which characters are blank and the two ways to drop them:

* `isBlank` -- the characters with the Unicode property White_Space (`blankRanges` is its table);
* `Text.clean` -- no blank is left anywhere (`clean_append`, `clean_eq_nil_iff`);
* `Text.trim` -- no blank is left at either end; a text trims to nothing exactly if it cleans to
  nothing (`trim_eq_nil_iff`), and to what stands between the blanks (`trim_of_isPadded`).
-/

namespace Calculator

/-- A text, as the list of its characters. -/
abbrev Text := List Char

/-! ## 1. Blank characters -/

/-- The ranges of code points with the Unicode property White_Space, ends included. -/
def blankRanges : List (Nat × Nat) :=
  [(0x9, 0xD), (0x20, 0x20), (0x85, 0x85), (0xA0, 0xA0), (0x1680, 0x1680), (0x2000, 0x200A),
    (0x2028, 0x2029), (0x202F, 0x202F), (0x205F, 0x205F), (0x3000, 0x3000)]

/-- A blank is a character of one of the `blankRanges`. -/
def isBlank (c : Char) : Bool :=
  blankRanges.any fun range => range.1 ≤ c.toNat && c.toNat ≤ range.2

/-- The space U+0020 is one blank among others. -/
theorem isBlank_space : isBlank ' ' = true := by decide

namespace Text

/-! ## 2. Dropping blanks -/

/-- The text without its blanks. -/
def clean (t : Text) : Text :=
  t.filter fun c => !isBlank c

theorem clean_append (s t : Text) : clean (s ++ t) = clean s ++ clean t := by
  simp [clean]

theorem clean_clean (t : Text) : t.clean.clean = t.clean := by
  simp [clean, List.filter_filter]

/-- Characters that are no blanks are all left. -/
theorem count_clean {c : Char} (h : isBlank c = false) (t : Text) : t.clean.count c = t.count c :=
  List.count_filter (by simp [h])

/-- Cleaning leaves nothing exactly if there are only blanks. -/
theorem clean_eq_nil_iff {t : Text} : clean t = [] ↔ ∀ c ∈ t, isBlank c = true := by
  simp [clean]

/-- The text without the characters at its end that satisfy `p`. -/
def dropTrailing (p : Char → Bool) (t : Text) : Text :=
  (t.reverse.dropWhile p).reverse

/-- The text without the blanks at its two ends. -/
def trim (t : Text) : Text :=
  dropTrailing isBlank (t.dropWhile isBlank)

theorem dropWhile_eq_nil {p : Char → Bool} :
    ∀ {t : Text}, t.dropWhile p = [] ↔ ∀ c ∈ t, p c = true
  | [] => by simp
  | c :: t => by
      by_cases h : p c = true
      · simp [h, dropWhile_eq_nil (t := t)]
      · simp [h]

/-- A character that does not satisfy `p` stops the dropping, whatever stands before it. -/
theorem dropTrailing_concat {p : Char → Bool} {c : Char} (t : Text) (h : p c = false) :
    dropTrailing p (t ++ [c]) = t ++ [c] := by
  simp [dropTrailing, h]

/-- **A text trims to nothing exactly if it cleans to nothing.** -/
theorem trim_eq_nil_iff {t : Text} : trim t = [] ↔ clean t = [] := by
  rw [clean_eq_nil_iff, ← dropWhile_eq_nil]
  unfold trim dropTrailing
  rw [List.reverse_eq_nil_iff, dropWhile_eq_nil]
  constructor
  · intro h
    cases ht : t.dropWhile isBlank with
    | nil => rfl
    | cons c r =>
        have hc : isBlank c = true := h c (by simp [ht])
        have := List.head?_dropWhile_not isBlank t
        simp [ht, hc] at this
  · intro h
    simp [h]

/-- The text is `t` with blanks around it. -/
def IsPadded (s t : Text) : Prop :=
  ∃ before after, (∀ c ∈ before, isBlank c = true) ∧ (∀ c ∈ after, isBlank c = true) ∧
    s = before ++ t ++ after

/-- **Blanks around a text without blanks are trimmed away.** -/
theorem trim_of_isPadded {s t : Text} (h : IsPadded s t) (ht : ∀ c ∈ t, isBlank c = false) :
    s.trim = t := by
  obtain ⟨before, after, hbefore, hafter, rfl⟩ := h
  have hstop : ∀ u : Text, (∀ c ∈ u.head?, isBlank c = false) → u.dropWhile isBlank = u := by
    intro u hu
    cases u with
    | nil => rfl
    | cons c u => simp [hu c rfl]
  cases t with
  | nil =>
      rw [trim_eq_nil_iff, clean_eq_nil_iff, List.append_nil]
      intro c hc
      exact (List.mem_append.1 hc).elim (hbefore c) (hafter c)
  | cons c t =>
      have hfront : (before ++ c :: t ++ after).dropWhile isBlank = c :: t ++ after := by
        rw [List.append_assoc, List.dropWhile_append_of_pos hbefore]
        exact hstop _ fun d hd => ht d (by simp_all)
      have hback : (c :: t ++ after).reverse.dropWhile isBlank = (c :: t).reverse := by
        rw [List.reverse_append, List.dropWhile_append_of_pos (by simpa using hafter)]
        exact hstop _ fun d hd => ht d (List.mem_reverse.1 (List.mem_of_mem_head? hd))
      rw [trim, dropTrailing, hfront, hback, List.reverse_reverse]

end Text

end Calculator

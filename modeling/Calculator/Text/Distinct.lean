import Calculator.Text

/-!
# The characters of a text

`Text.distinct` lists the characters that occur in a text, each once and in increasing order. It
has the same members as the text (`mem_distinct`) and is strictly increasing (`pairwise_distinct`),
so it depends only on which characters occur.
-/

namespace Calculator

namespace Text

/-- A character put into an increasing list, unless it is there. -/
def insertIncreasing (c : Char) : List Char → List Char
  | [] => [c]
  | d :: ds =>
      if c < d then c :: d :: ds
      else if c = d then d :: ds
      else d :: insertIncreasing c ds

/-- The characters that occur, each once, in increasing order. -/
def distinct (t : Text) : List Char :=
  t.foldr insertIncreasing []

theorem mem_insertIncreasing {c x : Char} : ∀ {ds : List Char},
    x ∈ insertIncreasing c ds ↔ x = c ∨ x ∈ ds
  | [] => by simp [insertIncreasing]
  | d :: ds => by
      unfold insertIncreasing
      split
      · simp
      · split
        · next h => simp [h]
        · simp only [List.mem_cons, @mem_insertIncreasing c x ds]
          exact or_left_comm

/-- **The members are those of the text.** -/
@[simp] theorem mem_distinct {x : Char} {t : Text} : x ∈ distinct t ↔ x ∈ t := by
  induction t with
  | nil => simp [distinct]
  | cons c t ih =>
      rw [distinct, List.foldr_cons, mem_insertIncreasing, List.mem_cons, ← ih]
      rfl

theorem pairwise_insertIncreasing {c : Char} : ∀ {ds : List Char},
    ds.Pairwise (· < ·) → (insertIncreasing c ds).Pairwise (· < ·)
  | [], _ => by simp [insertIncreasing]
  | d :: ds, h => by
      obtain ⟨hd, hds⟩ := List.pairwise_cons.1 h
      unfold insertIncreasing
      split
      · next hc =>
          refine List.pairwise_cons.2 ⟨fun x hx => ?_, h⟩
          rcases List.mem_cons.1 hx with rfl | hx
          · exact hc
          · exact Char.lt_trans hc (hd x hx)
      · split
        · exact h
        · next hc hne =>
            refine List.pairwise_cons.2 ⟨fun x hx => ?_, pairwise_insertIncreasing hds⟩
            rcases mem_insertIncreasing.1 hx with rfl | hx
            · exact Std.lt_of_le_of_ne (Char.not_lt.1 hc) (Ne.symm hne)
            · exact hd x hx

/-- The members stand in increasing order. -/
theorem pairwise_distinct (t : Text) : (distinct t).Pairwise (· < ·) := by
  induction t with
  | nil => exact List.Pairwise.nil
  | cons c t ih => exact pairwise_insertIncreasing ih

theorem distinct_eq_nil_iff {t : Text} : distinct t = [] ↔ t = [] := by
  simp only [List.eq_nil_iff_forall_not_mem, mem_distinct]

end Text

end Calculator

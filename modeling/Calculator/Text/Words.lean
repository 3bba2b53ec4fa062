import Calculator.Text

/-!
# Lines of words

`unwords` joins words with one space between two; `words` takes a text apart at its blanks, and
`clean` drops them. Texts that are words, neither empty nor with a blank in them, are got back from
their line one by one (`words_unwords`) or as one (`clean_unwords`).
-/

namespace Calculator

namespace Text

/-- The words with one space between two. -/
def unwords : List Text → Text
  | [] => []
  | [w] => w
  | w :: w' :: ws => w ++ ' ' :: unwords (w' :: ws)

/-- What stands between the blanks of a text, where anything does. -/
def words (t : Text) : List Text :=
  (t.splitOnP isBlank).filter fun w => !w.isEmpty

/-- A word can be told from its neighbours: it is not empty and holds no blank. -/
def IsWord (w : Text) : Prop :=
  w ≠ [] ∧ ∀ c ∈ w, isBlank c = false

instance (w : Text) : Decidable (IsWord w) :=
  decidable_of_iff (w.isEmpty = false ∧ w.all (fun c => !isBlank c) = true) (by simp [IsWord])

/-- A text is taken apart at each of its blanks. -/
theorem words_append_blank {c : Char} (hc : isBlank c = true) (s t : Text) :
    words (s ++ c :: t) = words s ++ words t := by
  unfold words
  rw [List.splitOnP_append_cons s t hc, List.filter_append]

theorem IsWord.words_eq {w : Text} (h : IsWord w) : words w = [w] := by
  unfold words
  rw [List.splitOnP_eq_singleton h.2]
  simp [h.1]

theorem IsWord.clean_eq {w : Text} (h : IsWord w) : clean w = w :=
  List.filter_eq_self.2 fun c hc => by rw [h.2 c hc]; rfl

/-- **Words are got back from their line.** -/
theorem words_unwords : ∀ {ws : List Text}, (∀ w ∈ ws, IsWord w) → words (unwords ws) = ws
  | [], _ => rfl
  | [w], h => (h w (by simp)).words_eq
  | w :: w' :: ws, h => by
      obtain ⟨hw, hws⟩ := List.forall_mem_cons.1 h
      rw [unwords, words_append_blank isBlank_space, hw.words_eq, words_unwords hws]
      rfl

/-- **Without its blanks a line is its words one behind the other.** -/
theorem clean_unwords : ∀ {ws : List Text}, (∀ w ∈ ws, IsWord w) → clean (unwords ws) = ws.flatten
  | [], _ => rfl
  | [w], h => by
      rw [unwords, (h w (by simp)).clean_eq]
      simp
  | w :: w' :: ws, h => by
      obtain ⟨hw, hws⟩ := List.forall_mem_cons.1 h
      have hline : w ++ ' ' :: unwords (w' :: ws) = w ++ ([' '] ++ unwords (w' :: ws)) := rfl
      have hspace : clean [' '] = [] := clean_eq_nil_iff.2 (by simp [isBlank_space])
      rw [unwords, hline, clean_append, clean_append, hspace, hw.clean_eq, clean_unwords hws]
      rfl

end Text

end Calculator

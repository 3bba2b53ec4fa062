import Calculator.Proofs.Window.Entry
import Calculator.Window.Panels
import Mathlib.Logic.Function.Iterate

/-!
# What DEL takes back

DEL takes back what a key put down, spaces included (`Entry.delete_insert`), so as many presses take
back as many keys (`Entry.iterate_delete_insertAll`). A text that is typed or pasted can have other
blanks than spaces behind its last symbol. DEL takes the last of these first, if there is one
(`Entry.delete_cases`): each costs a press of its own, and only then the symbol goes
(`Entry.iterate_delete`).

* `run_keys_delete`: a key adds its symbol to those of any entry, and DEL leaves what was there
  before it, without the spaces at the end.
* `run_delete_symbol`: DEL takes the last symbol of an entry exactly if there is none, or no other
  blank than spaces stands behind it.
-/

namespace Calculator

namespace Entry

/-! ## 1. Keys -/

theorem delete_concat {c : Char} (h : c ≠ ' ') (t : Text) : delete (t ++ [c]) = dropSpaces t :=
  delete_of_dropSpaces (dropSpaces_concat h t)

/-- Spaces at the end make no difference to DEL. -/
theorem delete_dropSpaces (t : Text) : delete (dropSpaces t) = delete t := by
  rw [delete, dropSpaces_dropSpaces]
  rfl

/-- **DEL takes back a key**, and the spaces that stood before it. -/
theorem delete_insert (t : Text) (k : Key) : delete (insert t k) = dropSpaces t := by
  have hk := ne_space_of_isBlank k.isBlank_symbol
  cases k with
  | digit d => exact delete_concat hk t
  | point => exact delete_concat hk t
  | leftBracket =>
      rw [insert]
      refine (delete_concat hk _).trans ?_
      split
      · exact dropSpaces_concat_space t
      · rfl
  | rightBracket => exact (delete_concat hk (dropSpaces t)).trans (dropSpaces_dropSpaces t)
  | operator op =>
      rw [insert]
      refine (delete_of_dropSpaces (dropSpaces_concat_pair hk _)).trans ?_
      split
      · next hempty =>
          rw [List.isEmpty_iff.1 hempty]
          rfl
      · rw [dropSpaces_concat_space, dropSpaces_dropSpaces]

/-- A blank that is no space stays where it was. -/
example : delete (insert ['\t', ' '] (.operator .division)) = ['\t'] := by decide

/-- The entry after keys, the first of the list first. -/
def insertAll (t : Text) (keys : List Key) : Text :=
  keys.foldl insert t

/-- Keys add their symbols in order. -/
theorem clean_insertAll (t : Text) (keys : List Key) :
    (insertAll t keys).clean = t.clean ++ keys.map Key.symbol := by
  induction keys generalizing t with
  | nil => exact (List.append_nil _).symm
  | cons k keys ih =>
      have hrest := ih (insert t k)
      rw [clean_insert, List.append_assoc] at hrest
      exact hrest

/-- **As many presses of DEL take back as many keys.** -/
theorem iterate_delete_insertAll (t : Text) (k : Key) (keys : List Key) :
    delete^[keys.length + 1] (insertAll t (k :: keys)) = dropSpaces t := by
  -- by the other keys: once they are taken back, the entry is the one after `k`, but for spaces
  induction keys generalizing t k with
  | nil => exact delete_insert t k
  | cons next keys ih =>
      have hrest : delete^[keys.length + 1] (insertAll t (k :: next :: keys)) =
          dropSpaces (insert t k) := ih (insert t k) next
      rw [List.length_cons, Function.iterate_succ_apply', hrest, delete_dropSpaces, delete_insert]

/-! ## 2. Blanks of any kind -/

/-- How many blanks other than spaces stand behind the last symbol. -/
def blanksBehind (t : Text) : Nat :=
  (t.reverse.takeWhile isBlank).countP fun c => !(c == ' ')

theorem blanksBehind_concat_space (t : Text) : blanksBehind (t ++ [' ']) = blanksBehind t := by
  simp [blanksBehind, isBlank_space]

theorem blanksBehind_concat_blank {c : Char} (hblank : isBlank c = true) (hspace : c ≠ ' ')
    (t : Text) : blanksBehind (t ++ [c]) = blanksBehind t + 1 := by
  simp [blanksBehind, hblank, hspace]

theorem blanksBehind_concat_symbol {c : Char} (hblank : isBlank c = false) (t : Text) :
    blanksBehind (t ++ [c]) = 0 := by
  simp [blanksBehind, hblank]

theorem blanksBehind_dropSpaces (t : Text) : blanksBehind (dropSpaces t) = blanksBehind t := by
  obtain ⟨n, ht, -⟩ := exists_dropSpaces t
  have hspaces : ∀ m, blanksBehind (dropSpaces t ++ List.replicate m ' ') =
      blanksBehind (dropSpaces t) := by
    intro m
    induction m with
    | zero => rw [List.replicate_zero, List.append_nil]
    | succ m ih =>
        rw [List.replicate_succ', ← List.append_assoc, blanksBehind_concat_space, ih]
  conv => rhs; rw [ht, hspaces n]

/-- **What DEL does**: where no other blank than spaces stands behind the last symbol, it takes the
    symbol; else it takes such a blank. -/
theorem delete_cases (t : Text) :
    (blanksBehind t = 0 ∧ (delete t).clean = t.clean.dropLast) ∨
      (blanksBehind t = blanksBehind (delete t) + 1 ∧ (delete t).clean = t.clean) := by
  have hbehind := blanksBehind_dropSpaces t
  -- DEL takes the last character before the spaces at the end, whatever it is
  rcases List.eq_nil_or_concat (dropSpaces t) with hs | ⟨s, c, hs⟩
  · rw [hs] at hbehind
    exact .inl ⟨hbehind.symm, clean_delete (by simp [hs])⟩
  · rw [List.concat_eq_append] at hs
    have hlast : (dropSpaces t).getLast? = some c := by rw [hs, List.getLast?_concat]
    cases hblank : isBlank c with
    | false =>
        rw [hs, blanksBehind_concat_symbol hblank] at hbehind
        refine .inl ⟨hbehind.symm, clean_delete fun d hd => ?_⟩
        rw [hlast] at hd
        rw [← Option.some.inj hd]
        exact hblank
    | true =>
        have hspace : c ≠ ' ' := by
          obtain ⟨-, -, hend⟩ := exists_dropSpaces t
          exact hend c hlast
        have hkept : Text.clean (s ++ [c]) = Text.clean s := by simp [Text.clean, hblank]
        rw [hs, blanksBehind_concat_blank hblank hspace] at hbehind
        rw [delete_of_dropSpaces hs, clean_dropSpaces, blanksBehind_dropSpaces, ← hbehind,
          ← clean_dropSpaces t, hs, hkept]
        exact .inr ⟨rfl, rfl⟩

/-- **Before the last symbol goes, each blank that is no space costs a press.** -/
theorem iterate_delete {t : Text} {n : Nat} (h : n ≤ blanksBehind t) :
    blanksBehind (delete^[n] t) + n = blanksBehind t ∧ (delete^[n] t).clean = t.clean := by
  induction n generalizing t with
  | zero => exact ⟨rfl, rfl⟩
  | succ n ih =>
      rw [Function.iterate_succ_apply]
      rcases delete_cases t with ⟨hzero, -⟩ | ⟨hone, hclean⟩
      · omega
      · obtain ⟨hbehind, hkept⟩ := ih (t := delete t) (by omega)
        exact ⟨by omega, hkept.trans hclean⟩

/-- With one press more the last symbol is gone. -/
theorem iterate_delete_succ (t : Text) :
    (delete^[blanksBehind t + 1] t).clean = t.clean.dropLast := by
  obtain ⟨hbehind, hkept⟩ := iterate_delete (Nat.le_refl (blanksBehind t))
  rw [Function.iterate_succ_apply']
  rcases delete_cases (delete^[blanksBehind t] t) with ⟨-, hclean⟩ | ⟨hone, -⟩
  · rw [hclean, hkept]
  · omega

/-- One press takes the last symbol exactly if there is none, or only spaces stand behind it. -/
theorem clean_delete_eq_dropLast_iff {t : Text} :
    (delete t).clean = t.clean.dropLast ↔ t.clean = [] ∨ blanksBehind t = 0 := by
  rcases delete_cases t with ⟨hzero, hclean⟩ | ⟨hone, hclean⟩
  · exact ⟨fun _ => .inr hzero, fun _ => hclean⟩
  · rw [hclean]
    refine ⟨fun heq => .inl ?_, fun h => ?_⟩
    · have hlength := congrArg List.length heq
      rw [List.length_dropLast] at hlength
      exact List.length_eq_zero_iff.1 (by omega)
    · rcases h with hnil | hzero
      · rw [hnil]
        rfl
      · omega

end Entry

/-! ## 3. At the window -/

theorem ExpressionPanel.entry_run_keys (p : ExpressionPanel) (keys : List Key) :
    (p.run (keys.map fun k => .press (.key k))).entry = Entry.insertAll p.entry keys := by
  induction keys generalizing p with
  | nil => rfl
  | cons k keys ih => exact ih (p.insert k)

theorem ExpressionPanel.entry_run_delete (p : ExpressionPanel) (n : Nat) :
    (p.run (List.replicate n (.press .delete))).entry = Entry.delete^[n] p.entry := by
  induction n generalizing p with
  | zero => rfl
  | succ n ih => exact ih p.delete

/-- **DEL takes back what keys put down.** Whatever the entry holds, a key adds its symbol to the
    symbols of the entry, and DEL leaves the entry as it was before the key without the spaces at
    its end; and so do as many presses of DEL as there were keys. -/
theorem run_keys_delete (s : Session) (k : Key) :
    let pressed := s.act (.press (.key k))
    let undone := pressed.act (.press .delete)
    pressed.window.expression.entry.clean = s.window.expression.entry.clean ++ [k.symbol] ∧
      (∃ n, s.window.expression.entry =
        undone.window.expression.entry ++ List.replicate n ' ') ∧
      (∀ c ∈ undone.window.expression.entry.getLast?, c ≠ ' ') ∧
      ∀ keys : List Key,
        let typed := s.run ((k :: keys).map fun k => .press (.key k))
        typed.window.expression.entry.clean =
            s.window.expression.entry.clean ++ (k :: keys).map Key.symbol ∧
          (typed.run (List.replicate (keys.length + 1) (.press .delete))).window.expression.entry =
            undone.window.expression.entry := by
  intro pressed undone
  have hundone : undone.window.expression.entry = Entry.dropSpaces s.window.expression.entry :=
    Entry.delete_insert _ k
  rw [hundone]
  obtain ⟨n, hentry, hlast⟩ := Entry.exists_dropSpaces s.window.expression.entry
  refine ⟨Entry.clean_insert _ k, ⟨n, hentry⟩, hlast, fun keys => ?_⟩
  intro typed
  have htyped : typed.window.expression.entry =
      Entry.insertAll s.window.expression.entry (k :: keys) := by
    show (s.run ((k :: keys).map fun k => .press (.key k))).window.expression.entry = _
    rw [Session.expression_run, ExpressionPanel.entry_run_keys]
  refine ⟨?_, ?_⟩
  · rw [htyped]
    exact Entry.clean_insertAll _ _
  · rw [Session.expression_run, ExpressionPanel.entry_run_delete, htyped]
    exact Entry.iterate_delete_insertAll _ k keys

/-- **When DEL takes the last symbol.** It does exactly if the entry has no symbol to take, or no
    other blank than spaces behind the last one. Else each such blank costs a press of its own, in
    which the symbols stay, and one more press takes the last symbol. -/
theorem run_delete_symbol (s : Session) :
    let entry := s.window.expression.entry
    let after := fun n => (s.run (List.replicate n (.press .delete))).window.expression.entry
    ((after 1).clean = entry.clean.dropLast ↔ entry.clean = [] ∨ Entry.blanksBehind entry = 0) ∧
      (∀ n ≤ Entry.blanksBehind entry, (after n).clean = entry.clean) ∧
      (after (Entry.blanksBehind entry + 1)).clean = entry.clean.dropLast := by
  intro entry after
  have hafter : ∀ n, after n = Entry.delete^[n] entry := by
    intro n
    show (s.run (List.replicate n (.press .delete))).window.expression.entry = _
    rw [Session.expression_run, ExpressionPanel.entry_run_delete]
  refine ⟨?_, fun n hn => ?_, ?_⟩
  · rw [hafter]
    exact Entry.clean_delete_eq_dropLast_iff
  · rw [hafter]
    exact (Entry.iterate_delete hn).2
  · rw [hafter]
    exact Entry.iterate_delete_succ entry

/-- **A no-break space behind a digit**: DEL takes the blank, and the digit stays. -/
theorem delete_no_break_space :
    let s := Session.start.run [.write .entry ['1', '\u00a0']]
    let pressed := s.act (.press .delete)
    s.window.expression.entry.clean = ['1'] ∧ pressed.window.expression.entry.clean = ['1'] ∧
      pressed.window.expression.entry.clean ≠ s.window.expression.entry.clean.dropLast := by
  decide

end Calculator

import Calculator.Proofs.Token.Literal

/-!
# The scan of a text in two parts

Where the second part starts at a boundary, a text is scanned part by part: `scan_append`, the
first part leaves to the second only its length and whether an operand ends with it. What a text
is cut into does not depend on where it starts (`scan_ok_anywhere`); an error moves with the start
(`scan_error_anywhere`).
-/

namespace Calculator

namespace Token

/-! ## 1. One token -/

theorem next?_nil (b : Bool) : next? b [] = none := by
  cases b <;> rfl

theorem negated?_minus (t : Text) : negated? false ('-' :: t) = literal? t := rfl

theorem negated?_after (t : Text) : negated? true t = none := by
  unfold negated?
  split <;> simp

theorem negated?_of_ne {b : Bool} {c : Char} {t : Text} (hc : c ≠ '-') :
    negated? b (c :: t) = none := by
  unfold negated?
  split
  · next heq => exact absurd (List.cons.inj heq).1 hc
  · rfl

theorem negated?_append_of_isBoundary {u : Text} (hu : IsBoundary u) (b : Bool) {c : Char}
    (s : Text) :
    negated? b (c :: (s ++ u)) = (negated? b (c :: s)).map fun (w, r) => (w, r ++ u) := by
  by_cases hc : c = '-'
  · subst hc
    cases b with
    | true => rw [negated?_after, negated?_after, Option.map_none]
    | false =>
        rw [negated?_minus, negated?_minus]
        exact literal?_append_of_isBoundary hu s
  · rw [negated?_of_ne hc, negated?_of_ne hc, Option.map_none]

/-- **The cut of a token does not look past a boundary.** -/
theorem next?_append_of_isBoundary {u : Text} (hu : IsBoundary u) (b : Bool) {s : Text}
    (hs : s ≠ []) : next? b (s ++ u) = (next? b s).map fun (tok, r) => (tok, r ++ u) := by
  obtain ⟨c, s, rfl⟩ := List.exists_cons_of_ne_nil hs
  have hn := negated?_append_of_isBoundary hu b (c := c) s
  have hl := literal?_append_of_isBoundary hu (c :: s)
  rw [List.cons_append] at hl ⊢
  unfold next?
  rw [hn, hl]
  cases negated? b (c :: s) with
  | some p => rfl
  | none =>
      cases literal? (c :: s) with
      | some p => rfl
      | none => cases h : ofChar? c <;> simp [h]

/-- The three ways in which a token starts a text. -/
theorem next?_cases {b : Bool} {t r : Text} {tok : Token} (h : next? b t = some (tok, r)) :
    (∃ w, tok = .number true ('-' :: w) ∧ b = false ∧ literal? (w ++ r) = some (w, r)) ∨
    (∃ w, tok = .number false w ∧ literal? (w ++ r) = some (w, r)) ∨
    (∃ c, tok.text = [c] ∧ ofChar? c = some tok ∧ negated? b (c :: r) = none) := by
  unfold next? at h
  split at h
  · next w rest hw =>
      obtain ⟨rfl, rfl⟩ := Prod.mk.inj (Option.some.inj h)
      refine Or.inl ⟨w, rfl, ?_⟩
      unfold negated? at hw
      split at hw
      · split at hw
        · simp at hw
        · next hb =>
            have happ := literal?_append hw
            rw [happ]
            exact ⟨by simpa using hb, hw⟩
      · simp at hw
  · next hneg =>
      split at h
      · next w rest hw =>
          obtain ⟨rfl, rfl⟩ := Prod.mk.inj (Option.some.inj h)
          have happ := literal?_append hw
          rw [← happ] at hw
          exact Or.inr (Or.inl ⟨w, rfl, hw⟩)
      · split at h
        · simp at h
        · next c rest _ =>
            obtain ⟨tok', htok, heq⟩ := Option.map_eq_some_iff.1 h
            obtain ⟨rfl, rfl⟩ := Prod.mk.inj heq
            exact Or.inr (Or.inr ⟨c, text_of_ofChar? htok, htok, hneg⟩)

/-! ## 2. All tokens -/

/-- An operand ends with the tokens, where `afterOperand` says whether one ends before them. -/
def operandAfter (afterOperand : Bool) : List Token → Bool
  | [] => afterOperand
  | tok :: ts => operandAfter tok.endsOperand ts

theorem operandAfter_append (b : Bool) (ts ts' : List Token) :
    operandAfter b (ts ++ ts') = operandAfter (operandAfter b ts) ts' := by
  induction ts generalizing b with
  | nil => rfl
  | cons tok ts ih => exact ih tok.endsOperand

theorem scan_nil (position : Nat) (b : Bool) : scan position b [] = .ok [] := by
  rw [scan]
  rfl

theorem scan_of_next? {position : Nat} {b : Bool} {t r : Text} {tok : Token}
    (h : next? b t = some (tok, r)) :
    scan position b t = (scan (position + tok.text.length) tok.endsOperand r).map (tok :: ·) := by
  have hne : t.isEmpty = false := by
    cases t with
    | nil => rw [next?_nil] at h; simp at h
    | cons c t => rfl
  rw [scan, hne, if_neg Bool.false_ne_true]
  split
  · next tok' r' h' =>
      obtain ⟨rfl, rfl⟩ := Prod.mk.inj (Option.some.inj (h.symm.trans h'))
      rfl
  · next h' => rw [h] at h'; simp at h'

theorem scan_of_next?_eq_none {position : Nat} {b : Bool} {t : Text} (hne : t ≠ [])
    (h : next? b t = none) :
    scan position b t = .error (.malformedNumber position (t.takeWhile (· = '.'))) := by
  have hne : t.isEmpty = false := by simpa using hne
  rw [scan, hne, if_neg Bool.false_ne_true]
  split
  · next h' => rw [h] at h'; simp at h'
  · rfl

theorem takeWhile_point_append {u : Text} (hu : IsBoundary u) (s : Text) :
    (s ++ u).takeWhile (· = '.') = s.takeWhile (· = '.') := by
  induction s with
  | nil =>
      cases u with
      | nil => rfl
      | cons c u => simp [(isBoundary_cons.1 hu).2]
  | cons c s ih => rw [List.cons_append, List.takeWhile_cons, List.takeWhile_cons, ih]

/-- **A text is scanned part by part where its second part starts at a boundary.** -/
theorem scan_append {u : Text} (hu : IsBoundary u) (position : Nat) (b : Bool) (s : Text) :
    scan position b (s ++ u) = (scan position b s).bind fun ts =>
      (scan (position + s.length) (operandAfter b ts) u).map (ts ++ ·) := by
  fun_induction scan position b s with
  | case1 position b s hs =>
      have hs : s = [] := by simpa using hs
      subst hs
      show scan position b u = (scan position b u).map ([] ++ ·)
      cases scan position b u <;> rfl
  | case2 position b s hs tok r hnext ih =>
      have hs : s ≠ [] := by simpa using hs
      have happ := next?_append_of_isBoundary hu b hs
      rw [hnext, Option.map_some] at happ
      have hlen : position + tok.text.length + r.length = position + s.length := by
        rw [← next?_append hnext, List.length_append, Nat.add_assoc]
      rw [scan_of_next? happ, ih, hlen]
      cases scan (position + tok.text.length) tok.endsOperand r with
      | error e => rfl
      | ok ts =>
          show ((scan _ (operandAfter tok.endsOperand ts) u).map (ts ++ ·)).map (tok :: ·) =
            (scan _ (operandAfter b (tok :: ts)) u).map (tok :: ts ++ ·)
          rw [operandAfter]
          cases scan (position + s.length) (operandAfter tok.endsOperand ts) u <;> rfl
  | case3 position b s hs hnext =>
      have hs : s ≠ [] := by simpa using hs
      have happ := next?_append_of_isBoundary hu b hs
      rw [hnext, Option.map_none] at happ
      rw [scan_of_next?_eq_none (List.append_ne_nil_of_left_ne_nil hs u) happ,
        takeWhile_point_append hu]
      rfl

/-- The tokens do not depend on where the text starts. -/
theorem scan_ok_anywhere {position : Nat} {b : Bool} {t : Text} {ts : List Token}
    (h : scan position b t = .ok ts) (position' : Nat) : scan position' b t = .ok ts := by
  fun_induction scan position b t generalizing ts position' with
  | case1 position b t ht =>
      have ht : t = [] := by simpa using ht
      subst ht
      rw [scan_nil, h]
  | case2 position b t _ tok r hnext ih =>
      rw [scan_of_next? hnext]
      obtain ⟨ts', hs, rfl⟩ := map_eq_ok_iff.1 h
      rw [ih hs]
      rfl
  | case3 => simp at h

/-- What is at fault stands as far behind the start wherever the text starts. -/
theorem scan_error_anywhere {position : Nat} {b : Bool} {t : Text} {e : Error}
    (h : scan position b t = .error e) :
    ∃ k fragment, k < t.length ∧
      ∀ position', scan position' b t =
        .error (.malformedNumber (position' + k) fragment) := by
  fun_induction scan position b t generalizing e with
  | case1 => simp at h
  | case2 position b t _ tok r hnext ih =>
      obtain ⟨k, fragment, hk, hall⟩ := ih (map_eq_error_iff.1 h)
      have hlen := congrArg List.length (next?_append hnext)
      rw [List.length_append] at hlen
      refine ⟨tok.text.length + k, fragment, by omega, fun position' => ?_⟩
      rw [scan_of_next? hnext, hall, Nat.add_assoc]
      rfl
  | case3 position b t ht hnext =>
      have hne : t ≠ [] := by simpa using ht
      exact ⟨0, t.takeWhile (· = '.'), List.length_pos_iff.2 hne,
        fun position' => scan_of_next?_eq_none hne hnext⟩

/-! ## 3. The alphabet -/

theorem unsupported_eq_nil_iff {t : Text} : unsupported t = [] ↔ ∀ c ∈ t, isSupported c = true := by
  rw [unsupported, Text.distinct_eq_nil_iff]
  simp

theorem ofText_eq (t : Text) :
    ofText t =
      if unsupported t.clean = [] then scan 0 false t.clean
      else .error (.unsupportedCharacters (unsupported t.clean)) := by
  unfold ofText
  simp only [List.isEmpty_iff]

/-- A text has tokens if all its characters can occur in one and the scan finds them. -/
theorem ofText_eq_ok_iff {t : Text} {ts : List Token} :
    ofText t = .ok ts ↔ unsupported t.clean = [] ∧ scan 0 false t.clean = .ok ts := by
  rw [ofText_eq]
  by_cases h : unsupported t.clean = []
  · rw [if_pos h]
    simp [h]
  · rw [if_neg h]
    simp [h]

end Token

end Calculator

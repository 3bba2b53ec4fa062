import Calculator.Proofs.Expression.Listing
import Calculator.Proofs.Number.Distance
import Calculator.Window.OperationPanel

/-!
# Results typed back

A result text is a word (`Number.isWord_resultText`). Without a power of ten it is a literal with
its sign, so an expression takes it; with one it has the letter `e` and no other character that an
expression refuses (`Token.unsupported_scientific`). A field of the window reads both. Main
statement: `Expression.solve_resultText`, which numbers an expression gets back from their result
texts.
-/

namespace Calculator

/-! ## 1. Numbers shown without a power of ten -/

namespace Number

variable {f : BinaryFormat}

/-- The number is finite, and a zero or neither too small nor too large for a positional result. -/
def IsPositional (x : Number f) : Prop :=
  ∃ q, x.toRat? = some q ∧ (q = 0 ∨ (10 : Rat) ^ (-4 : Int) ≤ |q| ∧ |q| < (10 : Rat) ^ (16 : Int))

theorem isScientific_eq_false_iff {a : Magnitude f} :
    isScientific a = false ↔
      a.toRat = 0 ∨ (10 : Rat) ^ (-4 : Int) ≤ a.toRat ∧ a.toRat < (10 : Rat) ^ (16 : Int) := by
  have hlarge : a.toRat = 0 → a.toRat < (10 : Rat) ^ (16 : Int) := by
    intro h
    rw [h]
    norm_num
  rw [Magnitude.toRat_eq_zero_iff] at hlarge ⊢
  cases h : a.isZero with
  | true => simpa [isScientific, h] using hlarge h
  | false =>
      simp [isScientific, h]
      exact and_comm

/-- **A number is positional exactly if its result text has no power of ten.** -/
theorem isPositional_finite_iff {negative : Bool} {a : Magnitude f} :
    (finite negative a).IsPositional ↔ isScientific a = false := by
  rw [isScientific_eq_false_iff, ← abs_signed_toRat negative a, abs_eq_zero]
  constructor
  · intro ⟨q, hq, h⟩
    rw [toRat?_finite] at hq
    rw [Option.some.inj hq]
    exact h
  · intro h
    exact ⟨_, toRat?_finite negative a, h⟩

end Number

/-! ## 2. The characters of a result text -/

namespace Token

/-- A character outside the alphabet between characters of it is the only unsupported one. -/
theorem unsupported_append_cons {s t : Text} {c : Char} (hs : ∀ x ∈ s, isSupported x = true)
    (ht : ∀ x ∈ t, isSupported x = true) (hc : isSupported c = false) :
    unsupported (s ++ c :: t) = [c] := by
  have hs' : (s.filter fun x => !isSupported x) = [] := by simpa using hs
  have ht' : (t.filter fun x => !isSupported x) = [] := by simpa using ht
  rw [unsupported, List.filter_append, List.filter_cons_of_pos (by simp [hc]), hs', ht']
  rfl

theorem isSupported_of_isDigit {c : Char} (h : c.isDigit = true) : isSupported c = true :=
  isSupported_of_isDigitOrPoint (by simp [isDigitOrPoint, h])

theorem isSupported_of_mem_signedDigits (z : Int) :
    ∀ c ∈ Decimal.signedDigits z, isSupported c = true := by
  have hdigits : ∀ c ∈ digits z.natAbs, isSupported c = true := fun c hc =>
    isSupported_of_isDigit (isDigit_of_mem_digits c hc)
  unfold Decimal.signedDigits
  split
  · exact List.forall_mem_cons.2 ⟨rfl, hdigits⟩
  · exact hdigits

/-- **The scientific layout has one character that an expression refuses.** -/
theorem exists_scientific_parts (d : Decimal) :
    ∃ s t, d.scientific = s ++ 'e' :: t ∧ (∀ c ∈ s, isSupported c = true) ∧
      ∀ c ∈ t, isSupported c = true := by
  obtain ⟨first, others, -, hfirst, hothers, -, htext⟩ := d.exists_scientific
  refine ⟨_, _, htext, List.forall_mem_cons.2 ⟨isSupported_of_isDigit hfirst, ?_⟩,
    isSupported_of_mem_signedDigits _⟩
  split
  · exact List.forall_mem_nil _
  · exact List.forall_mem_cons.2 ⟨rfl, fun c hc => isSupported_of_isDigit (hothers c hc)⟩

theorem unsupported_scientific (negative : Bool) (d : Decimal) :
    unsupported (Number.withMinus negative d.scientific) = ['e'] := by
  obtain ⟨s, t, htext, hs, ht⟩ := exists_scientific_parts d
  rw [htext]
  cases negative with
  | false => exact unsupported_append_cons hs ht rfl
  | true =>
      show unsupported (('-' :: s) ++ 'e' :: t) = ['e']
      exact unsupported_append_cons (List.forall_mem_cons.2 ⟨rfl, hs⟩) ht rfl

end Token

namespace Number

variable {f : BinaryFormat}

/-- The positional result text of a number is a literal with the number's sign. -/
theorem exists_literal_resultText (negative : Bool) {a : Magnitude f} (h : isScientific a = false) :
    ∃ l : Literal, (finite negative a).resultText = l.text := by
  obtain ⟨fraction, hfraction, htext⟩ := a.shortest.exists_positionalWithPoint
  have hliteral : IsLiteral a.shortest.positionalWithPoint :=
    .inr ⟨_, _, a.shortest.isDigits_wholeDigits, hfraction, htext⟩
  refine ⟨⟨negative, _, hliteral⟩, ?_⟩
  rw [resultText, magnitudeText, h]
  rfl

theorem resultText_of_isScientific {negative : Bool} {a : Magnitude f} (h : isScientific a = true) :
    (finite negative a).resultText = withMinus negative a.shortest.scientific := by
  rw [resultText, magnitudeText, h]
  rfl

theorem isWord_withMinus {t : Text} (h : Text.IsWord t) (negative : Bool) :
    Text.IsWord (withMinus negative t) := by
  cases negative with
  | false => exact h
  | true => exact ⟨List.cons_ne_nil _ _, List.forall_mem_cons.2 ⟨rfl, h.2⟩⟩

/-- **A result text is a word**: it holds no blank. -/
theorem isWord_resultText (x : Number f) : Text.IsWord x.resultText := by
  cases x with
  | nan => exact (by decide : Text.IsWord "NaN".toList)
  | infinite negative => exact isWord_withMinus (by decide) negative
  | finite negative a =>
      cases h : isScientific a with
      | false =>
          obtain ⟨l, hl⟩ := exists_literal_resultText negative h
          rw [hl]
          exact l.isLexeme_token.isWord
      | true =>
          rw [resultText_of_isScientific h]
          refine isWord_withMinus ⟨a.shortest.scientific_ne_nil, ?_⟩ negative
          obtain ⟨s, t, htext, hs, ht⟩ := Token.exists_scientific_parts a.shortest
          rw [htext]
          exact List.forall_mem_append.2 ⟨fun c hc => isBlank_of_isSupported (hs c hc),
            List.forall_mem_cons.2 ⟨rfl, fun c hc => isBlank_of_isSupported (ht c hc)⟩⟩

end Number

/-! ## 3. Results as operands and as expressions -/

theorem Text.IsWord.trim_eq {w : Text} (h : IsWord w) : w.trim = w :=
  trim_of_isPadded ⟨[], [], List.forall_mem_nil _, List.forall_mem_nil _, by simp⟩ h.2

/-- **A field of the window reads each finite result back.** -/
theorem OperationPanel.readOperand_resultText {x : Double} (hx : x.isFinite = true) (name : Text) :
    readOperand name x.resultText = .ok x := by
  simp only [readOperand, x.isWord_resultText.trim_eq, x.ofText?_resultText, hx, if_true]

namespace Expression

theorem solve_literal (l : Literal) : solve l.text = .ok l.value := by
  have hclean : l.text.clean = [l.token].flatMap Token.text := by
    have hword : l.text.clean = l.text := l.isLexeme_token.isWord.clean_eq
    rw [hword]
    exact (List.append_nil l.text).symm
  rw [solve_of_written (.literal 0 l) hclean]
  rfl

theorem solve_of_unsupported {t : Text} {cs : List Char} (ht : Text.IsWord t)
    (h : Token.unsupported t = cs) (hcs : cs ≠ []) :
    solve t = .error (.unsupportedCharacters cs) := by
  subst h
  have htext := Token.ofText_eq t
  rw [ht.clean_eq, if_neg hcs] at htext
  exact solve_of_ofText_eq_error htext

theorem solve_resultText_of_isPositional {x : Double} (h : x.IsPositional) :
    solve x.resultText = .ok x := by
  cases x with
  | nan => simp [Number.IsPositional, Number.toRat?] at h
  | infinite negative => simp [Number.IsPositional, Number.toRat?] at h
  | finite negative a =>
      obtain ⟨l, hl⟩ := Number.exists_literal_resultText negative
        (Number.isPositional_finite_iff.1 h)
      have hread := Number.ofText?_resultText (Number.finite negative a)
      rw [hl] at hread ⊢
      rw [solve_literal, Option.some.inj (l.ofText?_text.symm.trans hread)]

theorem solve_resultText_of_not_isPositional {x : Double} (hx : x.isFinite = true)
    (h : ¬ x.IsPositional) : solve x.resultText = .error (.unsupportedCharacters ['e']) := by
  cases x with
  | nan => simp [Number.isFinite] at hx
  | infinite negative => simp [Number.isFinite] at hx
  | finite negative a =>
      have hscientific : Number.isScientific a = true := by
        simpa [Number.isPositional_finite_iff] using h
      have hunsupported := Token.unsupported_scientific negative a.shortest
      rw [← Number.resultText_of_isScientific hscientific] at hunsupported
      exact solve_of_unsupported (Number.isWord_resultText _) hunsupported (List.cons_ne_nil _ _)

/-- **Which results can be typed back.** A field for an operand reads every finite number back from
    its result text, bit for bit. An expression gets a number back exactly if it is positional;
    another finite number has the letter of its power of ten refused, and what is not finite all
    letters of its name. -/
theorem solve_resultText (x : Double) :
    (x.isFinite = true → ∀ name, OperationPanel.readOperand name x.resultText = .ok x) ∧
    (solve x.resultText = .ok x ↔ x.IsPositional) ∧
    (x.isFinite = true → ¬ x.IsPositional →
      solve x.resultText = .error (.unsupportedCharacters ['e'])) ∧
    (∀ negative, x = .infinite negative →
      solve x.resultText = .error (.unsupportedCharacters ['f', 'i', 'n'])) ∧
    (x = .nan → solve x.resultText = .error (.unsupportedCharacters ['N', 'a'])) := by
  have hinfinite : ∀ negative, x = .infinite negative →
      solve x.resultText = .error (.unsupportedCharacters ['f', 'i', 'n']) := by
    intro negative hx
    have hunsupported : ∀ negative,
        Token.unsupported (Number.infinite negative : Double).resultText = ['f', 'i', 'n'] := by
      decide
    subst hx
    exact solve_of_unsupported (Number.isWord_resultText _) (hunsupported negative)
      (List.cons_ne_nil _ _)
  have hnan : x = .nan → solve x.resultText = .error (.unsupportedCharacters ['N', 'a']) := by
    intro hx
    have hunsupported : Token.unsupported (Number.nan : Double).resultText = ['N', 'a'] := by decide
    subst hx
    exact solve_of_unsupported (Number.isWord_resultText _) hunsupported (List.cons_ne_nil _ _)
  refine ⟨OperationPanel.readOperand_resultText,
    ⟨fun hsolve => ?_, solve_resultText_of_isPositional⟩,
    solve_resultText_of_not_isPositional, hinfinite, hnan⟩
  by_contra h
  cases x with
  | nan =>
      rw [hnan rfl] at hsolve
      exact nomatch hsolve
  | infinite negative =>
      rw [hinfinite negative rfl] at hsolve
      exact nomatch hsolve
  | finite negative a =>
      rw [solve_resultText_of_not_isPositional rfl h] at hsolve
      exact nomatch hsolve

end Expression

end Calculator

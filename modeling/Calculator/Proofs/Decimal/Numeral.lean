import Calculator.Proofs.Decimal.Value
import Calculator.Proofs.Token.Literal

/-!
# Decimals that are read back

Both layouts of a decimal read back: the scientific one as the decimal itself
(`decimal?_scientific`), the positional one as a decimal of the same value, with a place after the
point always (`exists_decimal?_positionalWithPoint`) or only where there is one
(`exists_decimal?_positional`).
-/

namespace Calculator

theorem isDigits_digits (n : Nat) : IsDigits (digits n) :=
  ⟨digits_ne_nil n, isDigit_of_mem_digits⟩

namespace Decimal

theorem isDigits_wholeDigits (d : Decimal) : IsDigits d.wholeDigits :=
  isDigits_digits _

theorem isDigit_of_mem_fractionDigits (d : Decimal) : ∀ c ∈ d.fractionDigits, c.isDigit = true :=
  isDigit_of_mem_paddedDigits _ _

theorem isDigits_fractionDigits {d : Decimal} (h : d.fractionLength ≠ 0) :
    IsDigits d.fractionDigits := by
  have hne : d.fractionDigits ≠ [] := by
    rw [← List.length_pos_iff, length_fractionDigits]
    omega
  exact ⟨hne, d.isDigit_of_mem_fractionDigits⟩

/-- Without places after the point the digits before it are all. -/
theorem digitsValue_wholeDigits {d : Decimal} (h : d.fractionLength = 0) :
    digitsValue d.wholeDigits = d.scaled := by
  have hnil : d.fractionDigits = [] := by
    rw [← List.length_eq_zero_iff, length_fractionDigits, h]
  rw [← d.digitsValue_places, hnil, List.append_nil]

/-- The positional layout, by the digits before the point and those after it. -/
theorem exists_positionalWithPoint (d : Decimal) :
    ∃ fraction, IsDigits fraction ∧ d.positionalWithPoint = d.wholeDigits ++ '.' :: fraction := by
  unfold positionalWithPoint
  split
  · exact ⟨['0'], by decide, rfl⟩
  · next hlength => exact ⟨d.fractionDigits, isDigits_fractionDigits hlength, rfl⟩

/-- **The positional layout is a literal**, since a point stands in it only before a place. -/
theorem isLiteral_positional (d : Decimal) : IsLiteral d.positional := by
  unfold positional
  split
  · exact Or.inl d.isDigits_wholeDigits
  · next hlength =>
      exact Or.inr ⟨_, _, d.isDigits_wholeDigits, isDigits_fractionDigits hlength, rfl⟩

/-- The scientific layout, by the first digit and the others. -/
theorem exists_scientific (d : Decimal) :
    ∃ first others, digits d.coefficient = first :: others ∧ first.isDigit = true ∧
      (∀ c ∈ others, c.isDigit = true) ∧ others.length + 1 = digitCount d.coefficient ∧
      d.scientific = first :: (if others.isEmpty then [] else '.' :: others) ++
        'e' :: signedDigits (d.exponent + others.length) := by
  obtain ⟨first, others, hdigits, hfirst⟩ := (isDigits_digits d.coefficient).exists_cons
  have hall : ∀ c ∈ first :: others, c.isDigit = true := by
    rw [← hdigits]
    exact isDigit_of_mem_digits
  have hlength : others.length + 1 = digitCount d.coefficient := by
    rw [← length_digits, hdigits, List.length_cons]
  refine ⟨first, others, hdigits, hfirst, fun c hc => hall c (List.mem_cons_of_mem _ hc), hlength,
    ?_⟩
  unfold scientific
  rw [hdigits]

end Decimal

namespace Numeral

/-! ## 1. Significands -/

/-- Digits before a boundary are the significand. -/
theorem significand?_whole {w u : Text} (hw : IsDigits w) (hu : IsBoundary u) :
    significand? (w ++ u) = some (⟨digitsValue w, 0⟩, u) := by
  have ht : (w ++ u).takeWhile Char.isDigit = w := by
    rw [takeWhile_append_of_isBoundary hu, hw.takeWhile_isDigit]
  have hd : (w ++ u).dropWhile Char.isDigit = u := by
    rw [dropWhile_append_of_isBoundary hu, hw.dropWhile_isDigit, List.nil_append]
  have hne := hw.1
  cases u with
  | nil => simp [significand?, hw.takeWhile_isDigit, hw.dropWhile_isDigit, hne]
  | cons c u =>
      have hc := (isBoundary_cons.1 hu).2
      simp [significand?, ht, hd, hc, hne]

/-- Digits, a point and digits before a boundary are the significand. -/
theorem significand?_point {w s u : Text} (hw : IsDigits w) (hs : ∀ c ∈ s, c.isDigit = true)
    (hu : IsBoundary u) :
    significand? (w ++ '.' :: s ++ u) = some (⟨digitsValue (w ++ s), -(s.length : Int)⟩, u) := by
  have hassoc : w ++ '.' :: s ++ u = w ++ '.' :: (s ++ u) := by
    rw [List.append_assoc, List.cons_append]
  have ht : (s ++ u).takeWhile Char.isDigit = s := by
    rw [List.takeWhile_append_of_pos hs, hu.takeWhile_isDigit, List.append_nil]
  have hd : (s ++ u).dropWhile Char.isDigit = u := by
    rw [List.dropWhile_append_of_pos hs, hu.dropWhile_isDigit]
  have hne := hw.1
  rw [hassoc]
  simp [significand?, takeWhile_append_point hw, dropWhile_append_point hw, ht, hd, hne]

/-! ## 2. Exponents -/

theorem splitSign_digits (n : Nat) : splitSign (digits n) = (false, digits n) := by
  obtain ⟨c, r, hcons, hc⟩ := (isDigits_digits n).exists_cons
  rw [hcons, splitSign_of_isDigit hc]

/-- **A written exponent reads back.** -/
theorem exponent?_signedDigits (z : Int) : exponent? ('e' :: Decimal.signedDigits z) = some z := by
  have hne : ∀ n, (digits n).isEmpty = false := fun n => by simp [digits_ne_nil]
  have hall : ∀ n, (digits n).all Char.isDigit = true := fun n =>
    List.all_eq_true.2 isDigit_of_mem_digits
  unfold Decimal.signedDigits
  split
  · next h =>
      have hminus : splitSign ('-' :: digits z.natAbs) = (true, digits z.natAbs) := rfl
      have hz : -(z.natAbs : Int) = z := by omega
      simp only [exponent?, hminus, hne, hall, digitsValue_digits, hz]
      rfl
  · next h =>
      have hz : (z.natAbs : Int) = z := by omega
      simp only [exponent?, splitSign_digits, hne, hall, digitsValue_digits, hz]
      rfl

/-! ## 3. Decimals -/

theorem isBoundary_exponent (t : Text) : IsBoundary ('e' :: t) :=
  isBoundary_cons.2 ⟨by decide, by decide⟩

/-- **The scientific layout reads as the decimal.** -/
theorem decimal?_scientific (d : Decimal) : decimal? d.scientific = some d := by
  obtain ⟨first, others, hdigits, hfirst, hothers, -, htext⟩ := d.exists_scientific
  have hwhole : IsDigits [first] := ⟨List.cons_ne_nil _ _, by simpa using hfirst⟩
  have hvalue : digitsValue (first :: others) = d.coefficient := by
    rw [← hdigits, digitsValue_digits]
  have hbound := isBoundary_exponent (Decimal.signedDigits (d.exponent + others.length))
  have hsignificand : significand? d.scientific =
      some (⟨d.coefficient, -(others.length : Int)⟩,
        'e' :: Decimal.signedDigits (d.exponent + others.length)) := by
    rw [htext, ← hvalue]
    cases others with
    | nil => exact significand?_whole hwhole hbound
    | cons c others => exact significand?_point hwhole hothers hbound
  have hexp : -(others.length : Int) + (d.exponent + others.length) = d.exponent := by omega
  rw [decimal?, hsignificand]
  simp only [exponent?_signedDigits, Option.map_some, hexp]

/-- **The positional layout reads as a decimal of the same value.** -/
theorem exists_decimal?_positionalWithPoint (d : Decimal) :
    ∃ d', decimal? d.positionalWithPoint = some d' ∧ d'.toRat = d.toRat := by
  have hread : ∀ s : Text, (∀ c ∈ s, c.isDigit = true) →
      decimal? (d.wholeDigits ++ '.' :: s) =
        some ⟨digitsValue (d.wholeDigits ++ s), -(s.length : Int) + 0⟩ := by
    intro s hs
    have h := significand?_point d.isDigits_wholeDigits hs isBoundary_nil
    rw [List.append_nil] at h
    rw [decimal?, h]
    rfl
  unfold Decimal.positionalWithPoint
  split
  · next hlength =>
      -- without places after the point a zero is put there
      refine ⟨_, hread ['0'] (by simp), ?_⟩
      have hscaled : digitsValue (d.wholeDigits ++ ['0']) = 10 * d.scaled := by
        rw [digitsValue_concat, Decimal.digitsValue_wholeDigits hlength]
        rfl
      rw [← d.toRat_scaled, hlength, Decimal.toRat, hscaled]
      push_cast
      norm_num
      ring
  · refine ⟨_, hread d.fractionDigits d.isDigit_of_mem_fractionDigits, ?_⟩
    rw [← d.toRat_scaled, Decimal.toRat, d.digitsValue_places, Decimal.length_fractionDigits,
      Int.add_zero]

/-- The same of the layout without a place after the point where there is none. -/
theorem exists_decimal?_positional (d : Decimal) :
    ∃ d', decimal? d.positional = some d' ∧ d'.toRat = d.toRat := by
  by_cases hlength : d.fractionLength = 0
  · have hread := significand?_whole d.isDigits_wholeDigits isBoundary_nil
    rw [List.append_nil, Decimal.digitsValue_wholeDigits hlength] at hread
    refine ⟨⟨d.scaled, 0⟩, ?_, ?_⟩
    · rw [Decimal.positional, if_pos hlength, decimal?, hread]
      rfl
    · rw [← d.toRat_scaled, hlength]
      rfl
  · have hpoint : d.positional = d.positionalWithPoint := by
      rw [Decimal.positional, Decimal.positionalWithPoint, if_neg hlength, if_neg hlength]
    rw [hpoint]
    exact exists_decimal?_positionalWithPoint d

end Numeral

end Calculator

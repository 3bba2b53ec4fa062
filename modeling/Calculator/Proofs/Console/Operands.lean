import Calculator.Number.Interchange
import Calculator.Proofs.Console.Arguments
import Calculator.Proofs.Number.Decimal

/-!
# Result texts as operands

A word with a minus sign in front is an operand only if a plain number follows the sign, and a plain
number has no sign in its exponent. The literals of expressions are plain numbers
(`IsLiteral.isPlainNumber`); a result text without its sign is one except below `10 ^ (-4)`, where
its exponent is negative (`isPlainNumber_magnitudeText`). Main statement: `read_binary_resultText`,
the finite numbers whose result texts are taken back as operands.
-/

namespace Calculator

/-! ## 1. Plain numbers -/

/-- What may stand behind the places of a plain number: nothing, or an exponent without sign. -/
def isPlainExponent : Text → Bool
  | [] => true
  | c :: ds => (c = 'e' || c = 'E') && !ds.isEmpty && ds.all Char.isDigit

theorem IsDigits.any_head?_append {w : Text} (hw : IsDigits w) (u : Text) :
    (w ++ u).head?.any Char.isDigit = true := by
  obtain ⟨c, r, rfl, hc⟩ := hw.exists_cons
  exact hc

theorem isPlainNumber_whole {w u : Text} (hw : IsDigits w) (hu : IsBoundary u) :
    isPlainNumber (w ++ u) = isPlainExponent u := by
  have hd : (w ++ u).dropWhile Char.isDigit = u := by
    rw [dropWhile_append_of_isBoundary hu, hw.dropWhile_isDigit, List.nil_append]
  simp only [isPlainNumber, hd, hw.any_head?_append, Bool.true_and]
  cases u with
  | nil => rfl
  | cons c u =>
      have hpoint := (isBoundary_cons.1 hu).2
      simp [isPlainExponent, hpoint]

theorem isPlainNumber_point {w s u : Text} (hw : IsDigits w) (hs : ∀ c ∈ s, c.isDigit = true)
    (hu : IsBoundary u) : isPlainNumber (w ++ '.' :: s ++ u) = isPlainExponent u := by
  have hassoc : w ++ '.' :: s ++ u = w ++ '.' :: (s ++ u) := by
    rw [List.append_assoc, List.cons_append]
  have hfraction : (s ++ u).dropWhile Char.isDigit = u := by
    rw [List.dropWhile_append_of_pos hs, hu.dropWhile_isDigit]
  rw [hassoc]
  simp only [isPlainNumber, dropWhile_append_point hw, hfraction, hw.any_head?_append,
    Bool.true_and]
  rfl

/-- **Every literal is a plain number.** -/
theorem IsLiteral.isPlainNumber {w : Text} (h : IsLiteral w) : isPlainNumber w = true := by
  rcases h with h | ⟨whole, fraction, hw, hf, rfl⟩
  · have hplain := isPlainNumber_whole h isBoundary_nil
    rwa [List.append_nil] at hplain
  · have hplain := isPlainNumber_point hw hf.2 isBoundary_nil
    rwa [List.append_nil] at hplain

theorem isPlainExponent_signedDigits (z : Int) :
    isPlainExponent ('e' :: Decimal.signedDigits z) = true ↔ 0 ≤ z := by
  have hall : (digits z.natAbs).all Char.isDigit = true := List.all_eq_true.2 isDigit_of_mem_digits
  unfold Decimal.signedDigits
  split
  · next h => simp [isPlainExponent, h]
  · next h => simp [isPlainExponent, hall, digits_ne_nil, not_lt.1 h]

namespace Decimal

theorem isPlainNumber_positionalWithPoint (d : Decimal) :
    isPlainNumber d.positionalWithPoint = true := by
  obtain ⟨fraction, hfraction, htext⟩ := d.exists_positionalWithPoint
  have hliteral : IsLiteral d.positionalWithPoint :=
    .inr ⟨_, _, d.isDigits_wholeDigits, hfraction, htext⟩
  exact hliteral.isPlainNumber

/-- The scientific layout is a plain number unless all places are behind the point. -/
theorem isPlainNumber_scientific (d : Decimal) :
    isPlainNumber d.scientific = true ↔ 0 < d.magnitudeOrder := by
  obtain ⟨first, others, -, hfirst, hothers, hlength, htext⟩ := d.exists_scientific
  have hwhole : IsDigits [first] := ⟨List.cons_ne_nil _ _, by simpa using hfirst⟩
  have hbound := Numeral.isBoundary_exponent (signedDigits (d.exponent + others.length))
  have hplain : isPlainNumber d.scientific =
      isPlainExponent ('e' :: signedDigits (d.exponent + others.length)) := by
    rw [htext]
    cases others with
    | nil => exact isPlainNumber_whole hwhole hbound
    | cons c others => exact isPlainNumber_point hwhole hothers hbound
  rw [hplain, isPlainExponent_signedDigits, magnitudeOrder, ← hlength]
  omega

end Decimal

/-! ## 2. Result texts -/

section

variable {f : BinaryFormat} {a : Magnitude f}

theorem Magnitude.shortest_coefficient_ne_zero (h : a.isZero = false) :
    a.shortest.coefficient ≠ 0 := by
  intro hzero
  have hnearest := a.nearest?_shortest
  rw [Decimal.toRat_of_coefficient_eq_zero hzero, nearest?_zero] at hnearest
  rw [← Option.some.inj hnearest] at h
  exact Bool.false_ne_true h.symm

/-- **The shortest decimal is on the side of one that its magnitude is on**: rounding does not cross
    a power of two. -/
theorem Magnitude.one_le_shortest_iff (hf : f.minExponent ≤ 0) (hne : a.toRat ≠ 1) :
    1 ≤ a.shortest.toRat ↔ 1 < a.toRat := by
  have hnearest := a.nearest?_shortest
  constructor
  · intro hone
    have hge : 1 ≤ a.toRat := le_toRat_of_nearest? hf (by simpa using hone) hnearest
    exact lt_of_le_of_ne hge hne.symm
  · intro hlt
    by_contra hsmall
    have hle : a.toRat ≤ 1 :=
      toRat_le_of_nearest? a.shortest.toRat_nonneg hf (by simpa using (not_le.1 hsmall).le) hnearest
    exact absurd hlt (not_lt.2 hle)

theorem Number.isPlainNumber_scientific_shortest (hf : f.minExponent ≤ 0) (h : a.isZero = false)
    (hne : a.toRat ≠ 1) : isPlainNumber a.shortest.scientific = true ↔ 1 < a.toRat := by
  rw [Decimal.isPlainNumber_scientific,
    ← Decimal.one_le_toRat_iff (Magnitude.shortest_coefficient_ne_zero h),
    Magnitude.one_le_shortest_iff hf hne]

end

namespace Number

variable {f : BinaryFormat}

/-- **The result text of a magnitude is no plain number exactly below `10 ^ (-4)`**, zero aside. -/
theorem isPlainNumber_magnitudeText (hf : f.minExponent ≤ 0) (a : Magnitude f) :
    isPlainNumber (magnitudeText a) = false ↔
      0 < a.toRat ∧ a.toRat < (10 : Rat) ^ (-4 : Int) := by
  have hpos : 0 < a.toRat ↔ a.isZero = false := by
    rw [Bool.eq_false_iff, ne_eq, ← Magnitude.toRat_eq_zero_iff]
    exact a.toRat_nonneg.lt_iff_ne'
  have hfour : (10 : Rat) ^ (-4 : Int) < 1 := by norm_num
  unfold magnitudeText
  split
  · next hlayout =>
      have hlayout : (10 : Rat) ^ (16 : Int) ≤ a.toRat ∨
          a.isZero = false ∧ a.toRat < (10 : Rat) ^ (-4 : Int) := by
        simpa [isScientific] using hlayout
      -- of the two kinds of magnitudes of this layout one lies above one, the other below
      rcases hlayout with hlarge | ⟨hzero, hsmall⟩
      · have hlt : 1 < a.toRat := lt_of_lt_of_le (by norm_num) hlarge
        have hplain := (isPlainNumber_scientific_shortest hf (hpos.1 (zero_lt_one.trans hlt))
          hlt.ne').2 hlt
        rw [hplain]
        exact iff_of_false (by decide) fun h => absurd (h.2.trans hfour) (not_lt.2 hlt.le)
      · have hlt : a.toRat < 1 := hsmall.trans hfour
        have hplain := (isPlainNumber_scientific_shortest hf hzero hlt.ne).not.2 (not_lt.2 hlt.le)
        exact iff_of_true (Bool.eq_false_iff.2 hplain) ⟨hpos.2 hzero, hsmall⟩
  · next hlayout =>
      have hlayout : a.toRat < (10 : Rat) ^ (16 : Int) ∧
          (a.isZero = false → (10 : Rat) ^ (-4 : Int) ≤ a.toRat) := by
        simpa [isScientific] using hlayout
      rw [Decimal.isPlainNumber_positionalWithPoint]
      exact iff_of_false (by decide) fun h => absurd h.2 (not_lt.2 (hlayout.2 (hpos.1 h.1)))

/-- The number is negative and above `-10 ^ (-4)`. -/
def IsSmallNegative (x : Number f) : Prop :=
  ∃ q, x.toRat? = some q ∧ -(10 : Rat) ^ (-4 : Int) < q ∧ q < 0

theorem isSmallNegative_finite_iff {negative : Bool} {a : Magnitude f} :
    (finite negative a).IsSmallNegative ↔
      negative = true ∧ 0 < a.toRat ∧ a.toRat < (10 : Rat) ^ (-4 : Int) := by
  have hnonneg := a.toRat_nonneg
  cases negative with
  | false =>
      refine iff_of_false ?_ (fun h => Bool.false_ne_true h.1)
      rintro ⟨q, hq, -, hneg⟩
      obtain rfl : a.toRat = q := Option.some.inj hq
      exact absurd hneg (not_lt.2 hnonneg)
  | true =>
      have hvalue : (finite true a).toRat? = some (-a.toRat) := rfl
      constructor
      · rintro ⟨q, hq, hlow, hneg⟩
        obtain rfl := Option.some.inj (hvalue.symm.trans hq)
        exact ⟨rfl, neg_neg_iff_pos.1 hneg, neg_lt_neg_iff.1 hlow⟩
      · rintro ⟨-, hpos, hlt⟩
        exact ⟨_, hvalue, neg_lt_neg_iff.2 hlt, neg_neg_iff_pos.2 hpos⟩

end Number

/-! ## 3. Results as operands -/

section

variable {operands : Operands} {unchecked : Option Text} {x : Double}

/-- A result text is an operand unless its number is a small negative one. -/
theorem isValue_resultText (hx : x.isFinite = true) (h : ¬ x.IsSmallNegative) :
    (Form.binary operands unchecked).IsValue x.resultText := by
  cases x with
  | nan => simp [Number.isFinite] at hx
  | infinite negative => simp [Number.isFinite] at hx
  | finite negative a =>
      obtain ⟨c, r, htext, hc⟩ := Number.exists_magnitudeText a
      refine Arguments.isValue_withMinus htext hc fun hnegative => ?_
      by_contra hplain
      have hsmall := (Number.isPlainNumber_magnitudeText (by decide) a).1 (by simpa using hplain)
      exact h (Number.isSmallNegative_finite_iff.2 ⟨hnegative, hsmall⟩)

/-- The result text of a small negative number is an unknown word. -/
theorem readForm_resultText (h : x.IsSmallNegative) (count : Option Nat) (rest : List Text) :
    Arguments.readForm false (.binary operands unchecked) count (x.resultText :: rest) =
      .error .unknownArgument := by
  cases x with
  | nan => simp [Number.IsSmallNegative, Number.toRat?] at h
  | infinite negative => simp [Number.IsSmallNegative, Number.toRat?] at h
  | finite negative a =>
      obtain ⟨rfl, hsmall⟩ := Number.isSmallNegative_finite_iff.1 h
      obtain ⟨c, r, htext, hc⟩ := Number.exists_magnitudeText a
      exact Arguments.readForm_withMinus htext hc
        ((Number.isPlainNumber_magnitudeText (by decide) a).2 hsmall) count rest

end

namespace Arguments

/-- **Finite results are taken back as the numbers they show**, bit for bit, unless one of them is
    negative and above `-10 ^ (-4)`: the sign of its exponent makes its word an unknown one. -/
theorem read_binary_resultText (op : Operator) {v w : Double} (hv : v.isFinite = true)
    (hw : w.isFinite = true) :
    (read ["binary".toList, v.resultText, [op.symbol], w.resultText] = .ok ⟨0, .binary v op w⟩ ↔
      ¬ v.IsSmallNegative ∧ ¬ w.IsSmallNegative) ∧
    (read ["binary".toList, v.resultText, [op.symbol], w.resultText] = .error .unknownArgument ↔
      v.IsSmallNegative ∨ w.IsSmallNegative) := by
  have hreadv := Number.ofText?_resultText v
  have hreadw := Number.ofText?_resultText w
  have htaken : ¬ v.IsSmallNegative → ¬ w.IsSmallNegative →
      read ["binary".toList, v.resultText, [op.symbol], w.resultText] =
        .ok ⟨0, .binary v op w⟩ := fun hsv hsw =>
    read_binary op (isValue_resultText hv hsv) hreadv (isValue_resultText hw hsw) hreadw
  have hrefused : v.IsSmallNegative ∨ w.IsSmallNegative →
      read ["binary".toList, v.resultText, [op.symbol], w.resultText] =
        .error .unknownArgument := by
    intro hsmall
    have hform : readForm false (.binary .nothing none) none
        [v.resultText, [op.symbol], w.resultText] = .error .unknownArgument := by
      by_cases hsv : v.IsSmallNegative
      · exact readForm_resultText hsv none _
      · rw [readForm_operator op (isValue_resultText hv hsv) hreadv]
        exact readForm_resultText (hsmall.resolve_left hsv) none _
    rw [read_of_ofName? ofName?_binary, hform]
    rfl
  by_cases hsmall : v.IsSmallNegative ∨ w.IsSmallNegative
  · have h := hrefused hsmall
    rw [h]
    exact ⟨iff_of_false nofun (not_and_or.2 (hsmall.imp not_not.2 not_not.2)),
      iff_of_true rfl hsmall⟩
  · obtain ⟨hsv, hsw⟩ := not_or.1 hsmall
    rw [htaken hsv hsw]
    exact ⟨iff_of_true rfl ⟨hsv, hsw⟩, iff_of_false nofun hsmall⟩

/-- A large negative result and the negative zero are taken back. -/
theorem read_binary_resultText_large_negative :
    read ["binary".toList, "-2.5e20".toList, ['/'], "-0.0".toList] =
      .ok ⟨0, .binary (.finite true ⟨7629394531250000, 15, by decide⟩) .division (.zero true)⟩ := by
  have hv : (Number.finite true ⟨7629394531250000, 15, by decide⟩ : Double).resultText =
      "-2.5e20".toList := by
    decide +kernel
  have hw : (Number.zero true : Double).resultText = "-0.0".toList := by decide +kernel
  have hread := (read_binary_resultText .division
    (v := .finite true ⟨7629394531250000, 15, by decide⟩) (w := .zero true) rfl rfl).1.2
  rw [hv, hw] at hread
  refine hread ⟨fun h => ?_, fun h => ?_⟩
  · exact absurd (Number.isSmallNegative_finite_iff.1 h).2.2 (by decide +kernel)
  · exact absurd (Number.isSmallNegative_finite_iff.1 h).2.1 (by decide +kernel)

/-- The result text of a number next to `-10 ^ (-5)` is no operand. -/
theorem read_binary_small_negative :
    (Number.ofBits 0xbee4f8b588e368f1 : Double).isFinite = true ∧
    (Number.nearest 1 : Double).isFinite = true ∧
    (Number.ofBits 0xbee4f8b588e368f1 : Double).resultText = "-1e-5".toList ∧
    read ["binary".toList, (Number.ofBits 0xbee4f8b588e368f1 : Double).resultText,
      [Operator.addition.symbol], (Number.nearest 1 : Double).resultText] =
      .error .unknownArgument := by
  have hv : (Number.ofBits 0xbee4f8b588e368f1 : Double).resultText = "-1e-5".toList := by
    decide +kernel
  have hw : (Number.nearest 1 : Double).resultText = "1.0".toList := by decide +kernel
  refine ⟨by decide +kernel, by decide +kernel, hv, ?_⟩
  rw [hv, hw]
  rfl

end Arguments

end Calculator

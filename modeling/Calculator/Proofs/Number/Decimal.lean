import Calculator.Number.Decimal
import Calculator.Proofs.Decimal.Numeral
import Calculator.Proofs.Number.Rounding

/-!
# Numbers that are read back

A decimal reads as the number nearest to its value, whatever its coefficient and exponent: what is
not computed would round to an infinity or to zero (`ofDecimal_eq_ofRat`). The shortest decimal of a
magnitude is one that rounds to it (`nearest?_shortest`). Main statements: `ofText?_resultText` and
`ofText?_listingText`, every number is read back from its result text and from its listing text, bit
for bit.
-/

namespace Calculator

/-! ## 1. Reading is rounding -/

theorem two_zpow_le_ten_zpow {k : Int} (h : 0 ≤ k) : (2 : Rat) ^ k ≤ 10 ^ k := by
  obtain ⟨n, rfl⟩ := Int.eq_ofNat_of_zero_le h
  rw [zpow_natCast, zpow_natCast]
  exact pow_le_pow_left₀ two_pos.le (by norm_num) n

theorem ten_zpow_le_two_zpow {k : Int} (h : k ≤ 0) : (10 : Rat) ^ k ≤ 2 ^ k := by
  have hle := two_zpow_le_ten_zpow (Int.neg_nonneg_of_nonpos h)
  rw [zpow_neg, zpow_neg] at hle
  exact (inv_le_inv₀ (two_zpow_pos k) (zpow_pos (by norm_num) k)).1 hle

namespace Number

variable {f : BinaryFormat}

theorem ofRat_of_nearest? {negative : Bool} {q : Rat} {a : Magnitude f}
    (h : Magnitude.nearest? q = some a) : ofRat negative q = .finite negative a := by
  rw [ofRat, h]

theorem nearest?_of_ofRat {negative : Bool} {q : Rat} {a : Magnitude f}
    (h : ofRat negative q = .finite negative a) : Magnitude.nearest? q = some a := by
  unfold ofRat at h
  split at h
  · next b hb =>
      obtain ⟨-, rfl⟩ := Number.finite.inj h
      exact hb
  · simp at h

/-- **A decimal reads as the number nearest to its value**: one that is not computed because of its
    order lies past the range or below half of the smallest magnitude. -/
theorem ofDecimal_eq_ofRat (negative : Bool) (d : Decimal) :
    (ofDecimal negative d : Number f) = ofRat negative d.toRat := by
  unfold ofDecimal
  split
  · next hzero => rw [Decimal.toRat_of_coefficient_eq_zero hzero, ofRat_zero]
  · next hne =>
      split
      · next horder =>
          have hlarge : (2 : Rat) ^ (f.maxExponent + f.precision) ≤ d.toRat := by
            calc (2 : Rat) ^ (f.maxExponent + f.precision) ≤ 2 ^ (d.magnitudeOrder - 1) :=
                  zpow_le_zpow_right₀ one_le_two (by omega)
              _ ≤ 10 ^ (d.magnitudeOrder - 1) := two_zpow_le_ten_zpow (by omega)
              _ ≤ d.toRat := Decimal.le_toRat hne
          rw [ofRat, Magnitude.nearest?_eq_none hlarge]
      · split
        · next horder =>
            have hsmall : d.toRat < 2 ^ (f.minExponent - 1) := by
              calc d.toRat < 10 ^ d.magnitudeOrder := d.toRat_lt
                _ ≤ 2 ^ d.magnitudeOrder := ten_zpow_le_two_zpow (by omega)
                _ ≤ 2 ^ (f.minExponent - 1) := zpow_le_zpow_right₀ one_le_two (by omega)
            rw [ofRat_of_nearest? (Magnitude.nearest?_eq_zero d.toRat_nonneg hsmall)]
            rfl
        · rfl

end Number

/-! ## 2. The shortest decimal -/

namespace Magnitude

variable {f : BinaryFormat} (a : Magnitude f)

theorem toRat_exactDecimal : a.exactDecimal.toRat = a.toRat := by
  have hcoefficient : (a.exactDecimal.coefficient : Rat) =
      a.significand * 2 ^ a.exponent.toNat * 5 ^ (-a.exponent).toNat := by
    have hnat : a.exactDecimal.coefficient =
        a.significand * 2 ^ a.exponent.toNat * 5 ^ (-a.exponent).toNat := rfl
    rw [hnat]
    push_cast
    rfl
  have hexponent : a.exactDecimal.exponent = min a.exponent 0 := rfl
  rw [Decimal.toRat, hcoefficient, hexponent, toRat]
  rcases le_total 0 a.exponent with h | h
  · obtain ⟨n, hn⟩ := Int.eq_ofNat_of_zero_le h
    have hneg : (-a.exponent).toNat = 0 := by omega
    rw [min_eq_right h, hneg, hn]
    simp
  · obtain ⟨n, hn⟩ := Int.eq_ofNat_of_zero_le (Int.neg_nonneg_of_nonpos h)
    have he : a.exponent = -(n : Int) := by omega
    have hten : (10 : Rat) ^ n = 5 ^ n * 2 ^ n := by
      rw [← mul_pow]
      norm_num
    rw [min_eq_left h, he]
    simp only [Int.neg_neg, Int.toNat_neg_natCast, Int.toNat_natCast, zpow_neg, zpow_natCast, hten]
    field_simp

theorem isReadFrom_iff {d : Decimal} : a.isReadFrom d = true ↔ nearest? d.toRat = some a := by
  rw [isReadFrom, decide_eq_true_eq, Number.ofDecimal_eq_ofRat]
  exact ⟨Number.nearest?_of_ofRat, Number.ofRat_of_nearest?⟩

/-- **A magnitude is the nearest to its shortest decimal.** -/
theorem nearest?_shortest : nearest? a.shortest.toRat = some a := by
  unfold shortest
  split
  · next h =>
      rw [Decimal.toRat_of_coefficient_eq_zero rfl, nearest?_zero, eq_zero_of_isZero h]
  · have hexact : a.isReadFrom a.exactDecimal = true := by
      rw [isReadFrom_iff, toRat_exactDecimal, nearest?_toRat]
    rw [Decimal.toRat_strip]
    exact (isReadFrom_iff a).1 (Decimal.accepts_shorten hexact _)

end Magnitude

/-! ## 3. Result texts -/

namespace Number

variable {f : BinaryFormat}

/-- The result text of a magnitude starts with a digit. -/
theorem exists_magnitudeText (a : Magnitude f) :
    ∃ c r, magnitudeText a = c :: r ∧ c.isDigit = true := by
  unfold magnitudeText
  split
  · obtain ⟨first, others, -, hfirst, -, -, htext⟩ := a.shortest.exists_scientific
    exact ⟨first, _, htext, hfirst⟩
  · obtain ⟨fraction, -, htext⟩ := a.shortest.exists_positionalWithPoint
    obtain ⟨c, r, hcons, hc⟩ := a.shortest.isDigits_wholeDigits.exists_cons
    rw [hcons] at htext
    exact ⟨c, r ++ '.' :: fraction, htext, hc⟩

theorem exists_decimal?_magnitudeText (a : Magnitude f) :
    ∃ d, Numeral.decimal? (magnitudeText a) = some d ∧ d.toRat = a.shortest.toRat := by
  unfold magnitudeText
  split
  · exact ⟨_, Numeral.decimal?_scientific _, rfl⟩
  · exact Numeral.exists_decimal?_positionalWithPoint _

/-- The sign in front of a text that starts with a digit is split off. -/
theorem splitSign_withMinus {t r : Text} {c : Char} (ht : t = c :: r) (hc : c.isDigit = true)
    (negative : Bool) : Numeral.splitSign (withMinus negative t) = (negative, t) := by
  cases negative with
  | true => rfl
  | false =>
      show Numeral.splitSign t = (false, t)
      rw [ht, Numeral.splitSign_of_isDigit hc]

/-- **A layout of the shortest decimal of a magnitude reads, with a sign, as the magnitude with that
    sign**, if it starts with a digit. -/
theorem ofText?_withMinus {a : Magnitude f} {t r : Text} {c : Char} (ht : t = c :: r)
    (hc : c.isDigit = true)
    (hread : ∃ d, Numeral.decimal? t = some d ∧ d.toRat = a.shortest.toRat) (negative : Bool) :
    ofText? (withMinus negative t) = some (.finite negative a) := by
  obtain ⟨d, hd, hvalue⟩ := hread
  have hsplit := splitSign_withMinus ht hc negative
  have hnumeral : Numeral.ofText? (withMinus negative t) = some (.decimal negative d) := by
    rw [ht] at hsplit hd ⊢
    rw [Numeral.ofText?_of_isDigit hsplit hc, hd]
    rfl
  have hnearest : Magnitude.nearest? d.toRat = some a := by
    rw [hvalue, a.nearest?_shortest]
  rw [ofText?, hnumeral, Option.map_some, ofNumeral, ofDecimal_eq_ofRat, ofRat_of_nearest? hnearest]

/-- **Every number is read back from its result text.** -/
theorem ofText?_resultText (x : Number f) : ofText? x.resultText = some x := by
  cases x with
  | nan => rfl
  | infinite negative => cases negative <;> rfl
  | finite negative a =>
      obtain ⟨c, r, hcons, hc⟩ := exists_magnitudeText a
      exact ofText?_withMinus hcons hc (exists_decimal?_magnitudeText a) negative

/-- Numbers of one result text are one number, bit for bit. -/
theorem resultText_inj {x y : Number f} : x.resultText = y.resultText ↔ x = y := by
  constructor
  · intro h
    have hread := ofText?_resultText x
    rw [h, ofText?_resultText] at hread
    exact (Option.some.inj hread).symm
  · exact congrArg resultText

/-! ## 4. Listing texts -/

/-- **Every number is read back from its listing text.** -/
theorem ofText?_listingText (x : Number f) : ofText? x.listingText = some x := by
  cases x with
  | nan => rfl
  | infinite negative => cases negative <;> rfl
  | finite negative a =>
      obtain ⟨c, r, hcons, hc⟩ := a.shortest.isLiteral_positional.exists_cons
      exact ofText?_withMinus hcons hc (Numeral.exists_decimal?_positional a.shortest) negative

end Number

end Calculator

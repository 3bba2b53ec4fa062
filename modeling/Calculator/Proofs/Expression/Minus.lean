import Calculator.Proofs.Expression.RoundTrip
import Calculator.Proofs.Number.Decimal

/-!
# The minus sign of an operator and of a literal

A minus sign is an operator behind an operand and belongs to the literal elsewhere. Behind an
expression the two come to the same: an operator between an expression and a literal is done last if
no operator holds less closely (`Expression.solve_concat_operation`), a literal with a minus sign is
the opposite number (`Number.ofText?_minus`), and a difference is the sum with the opposite. Main
statement: `Expression.solve_minus_literal`.
-/

namespace Calculator

/-! ## 1. Signs of literals -/

namespace Number

variable {f : BinaryFormat}

theorem negate_ofRat (negative : Bool) (q : Rat) :
    (ofRat negative q : Number f).negate = ofRat (!negative) q := by
  unfold ofRat
  cases Magnitude.nearest? (f := f) q <;> rfl

/-- **A literal with a minus sign reads as the opposite number**, whether it is rounded, too large
    for the format or a zero. -/
theorem ofText?_minus {w : Text} (h : IsLiteral w) :
    (ofText? ('-' :: w) : Option (Number f)) = (ofText? w).map negate := by
  obtain ⟨c, r, rfl, hc⟩ := h.exists_cons
  obtain ⟨d, hd⟩ := Numeral.exists_decimal? h
  have hminus : Numeral.ofText? ('-' :: c :: r) = some (.decimal true d) := by
    rw [Numeral.ofText?_of_isDigit (t := '-' :: c :: r) rfl hc, hd]
    rfl
  have hplain : Numeral.ofText? (c :: r) = some (.decimal false d) := by
    rw [Numeral.ofText?_of_isDigit (Numeral.splitSign_of_isDigit hc) hc, hd]
    rfl
  rw [ofText?, ofText?, hminus, hplain, Option.map_some, Option.map_some, Option.map_some,
    ofNumeral, ofNumeral, ofDecimal_eq_ofRat, ofDecimal_eq_ofRat, negate_ofRat]
  rfl

end Number

theorem Literal.value_minus {w : Text} (h : IsLiteral w) :
    (Literal.mk true w h).value = (Literal.mk false w h).value.negate := by
  have hminus := (Literal.mk true w h).ofText?_text
  have hplain := (Literal.mk false w h).ofText?_text
  have hboth : Number.ofText? ('-' :: w) = some (Literal.mk false w h).value.negate := by
    rw [Number.ofText?_minus h]
    exact congrArg (Option.map Number.negate) hplain
  exact Option.some.inj (hminus.symm.trans hboth)

/-! ## 2. An operation behind an expression -/

namespace Expression

variable {t : Text} {ts : List Token}

/-- **An operator that holds least closely and a literal, written behind an expression, are done
    last**: on the value of the expression, or its error stands. -/
theorem solve_concat_operation (ht : Token.ofText t = .ok ts) (hts : Derives .expression ts)
    {op : Operator} (hop : op.precedence = 1) (l : Literal) :
    solve (t ++ op.symbol :: l.text) = (solve t).bind fun x => op.apply x l.value := by
  obtain ⟨htext, hcut⟩ := Token.isCutAfter_of_ofText ht
  obtain ⟨e, he⟩ := (hts.isChain hcut.isLexeme).written
  have hleft : Written op.precedence e ts := by
    rw [hop]
    exact he
  have hwritten : Written 0 (.node op e (.leaf l)) (ts ++ .operator op :: [l.token]) :=
    .operation (Nat.zero_le _) hleft (.literal _ l)
  have hclean : (t ++ op.symbol :: l.text).clean =
      (ts ++ .operator op :: [l.token]).flatMap Token.text := by
    have hlexemes : ∀ tok ∈ [Token.operator op, l.token], tok.IsLexeme :=
      List.forall_mem_cons.2 ⟨trivial, List.forall_mem_singleton.2 l.isLexeme_token⟩
    have hend : Text.clean (op.symbol :: l.text) = op.symbol :: l.text := by
      have hword := clean_flatMap_text hlexemes
      simpa [Token.text, Literal.token] using hword
    rw [Text.clean_append, hend, ← htext, List.flatMap_append]
    simp [Token.text, Literal.token]
  rw [solve_of_written hwritten hclean, solve_of_written (he.mono (Nat.zero_le _)) htext.symm]
  rfl

/-- **Behind an expression a minus sign subtracts, whichever it is**: subtracting a literal is
    adding the literal with a minus sign, and subtracting that one is adding the literal, with the
    same value or the same error. -/
theorem solve_minus_literal (ht : Token.ofText t = .ok ts) (hts : Derives .expression ts) {w : Text}
    (hw : IsLiteral w) :
    solve (t ++ "-".toList ++ w) = solve (t ++ "+-".toList ++ w) ∧
    solve (t ++ "--".toList ++ w) = solve (t ++ "+".toList ++ w) ∧
    ∃ b, Number.ofText? w = some b ∧
      solve (t ++ "-".toList ++ w) = (solve t).map (·.subtract b) ∧
      solve (t ++ "+".toList ++ w) = (solve t).map (·.add b) := by
  let plain : Literal := ⟨false, w, hw⟩
  let minus : Literal := ⟨true, w, hw⟩
  have hvalue : minus.value = plain.value.negate := Literal.value_minus hw
  have hoperation : ∀ (op : Operator) (l : Literal) (z : Text), op.precedence = 1 →
      z ++ w = op.symbol :: l.text →
      solve (t ++ z ++ w) = (solve t).bind fun x => op.apply x l.value := by
    intro op l z hop hz
    rw [List.append_assoc, hz]
    exact solve_concat_operation ht hts hop l
  have hsubtract := hoperation .subtraction plain "-".toList rfl rfl
  have haddMinus := hoperation .addition minus "+-".toList rfl rfl
  have hsubtractMinus := hoperation .subtraction minus "--".toList rfl rfl
  have hadd := hoperation .addition plain "+".toList rfl rfl
  refine ⟨?_, ?_, plain.value, plain.ofText?_text, ?_, ?_⟩
  · rw [hsubtract, haddMinus, hvalue]
    rfl
  · rw [hsubtractMinus, hadd, hvalue]
    simp only [Operator.apply, Number.subtract, Number.negate_negate]
  · rw [hsubtract]
    cases solve t <;> rfl
  · rw [hadd]
    cases solve t <;> rfl

/-- Behind the negative zero a zero is subtracted, and the signs of both zeros count: the difference
    is the negative zero, the sum the positive one. -/
theorem solve_minus_literal_zeros :
    ∃ ts, Token.ofText "-0*(3-1)".toList = .ok ts ∧ Derives .expression ts ∧ IsLiteral ['0'] ∧
      solve "-0*(3-1)-0".toList = solve "-0*(3-1)+-0".toList ∧
      solve "-0*(3-1)--0".toList = solve "-0*(3-1)+0".toList ∧
      (∃ b, Number.ofText? ['0'] = some b ∧
        solve "-0*(3-1)-0".toList = (solve "-0*(3-1)".toList).map (·.subtract b) ∧
        solve "-0*(3-1)+0".toList = (solve "-0*(3-1)".toList).map (·.add b)) ∧
      solve "-0*(3-1)".toList = .ok (.zero true) ∧ solve "-0*(3-1)-0".toList = .ok (.zero true) ∧
      solve "-0*(3-1)--0".toList = .ok (.zero false) := by
  have hwritten : Written 0 (.node .multiplication (.leaf ⟨true, ['0'], .inl (by decide)⟩)
      (.node .subtraction (.leaf ⟨false, ['3'], .inl (by decide)⟩)
        (.leaf ⟨false, ['1'], .inl (by decide)⟩))) _ :=
    .operation (by decide) (.literal _ _)
      (.brackets (.operation (by decide) (.literal _ _) (.literal _ _)))
  have ht : Token.ofText "-0*(3-1)".toList = .ok _ := ofText_of_written hwritten (by decide)
  have hts : Derives .expression _ := derives_expression_iff.2 ⟨hwritten.alternates, rfl⟩
  have hw : IsLiteral ['0'] := .inl (by decide)
  obtain ⟨hminus, hplus, hoperations⟩ := solve_minus_literal ht hts hw
  exact ⟨_, ht, hts, hw, hminus, hplus, hoperations, eq_ok_of_toOption (by decide +kernel),
    eq_ok_of_toOption (by decide +kernel), eq_ok_of_toOption (by decide +kernel)⟩

end Expression

end Calculator

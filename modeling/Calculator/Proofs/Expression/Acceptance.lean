import Calculator.Expression
import Calculator.Proofs.Postfix.Conservation

/-!
# Which texts have a value

A value tells only that brackets match and that there is one number more than there are operators
(`balanced_of_solve`): a conversion does not look at the places of its operators. That is enough to
make the tokens an expression exactly where no operand follows an operand
(`derives_iff_isSpaced_of_solve`). Operands that stand side by side can make up for operators that
stand side by side, and then a text that is no expression has a value all the same
(`solve_operators_side_by_side`).
-/

namespace Calculator

namespace Expression

open Token (IsSpaced)

/-- **What a value tells about the tokens.** -/
theorem balanced_of_solve {t : Text} {x : Double} (h : solve t = .ok x) :
    ∃ ts, Token.ofText t = .ok ts ∧ Token.depth? 0 ts = some 0 ∧
      (Token.numbers ts).length = (Token.operators ts).length + 1 := by
  obtain ⟨ts, es, ht, he, hx⟩ := solve_eq_ok_iff.1 h
  obtain ⟨hnum, hops, hdepth⟩ := Postfix.conserves_ofTokens he
  have hlen := Postfix.length_numbers_of_value hx
  have hnum := congrArg List.length hnum
  rw [List.length_map, List.length_map] at hnum
  exact ⟨ts, ht, hdepth, by rw [← hnum, ← hops.length_eq, hlen]⟩

/-- **A text that has a value is an expression exactly if no operand in it follows an operand**: no
    number and no opening bracket stands right behind a number or a closing bracket. -/
theorem derives_iff_isSpaced_of_solve {t : Text} {x : Double} (h : solve t = .ok x) :
    ∃ ts, Token.ofText t = .ok ts ∧ (Derives .expression ts ↔ IsSpaced ts) := by
  obtain ⟨ts, ht, hdepth, hlen⟩ := balanced_of_solve h
  refine ⟨ts, ht, ?_⟩
  rw [derives_expression_iff]
  constructor
  · rintro ⟨halt, -⟩
    exact halt.isSpaced
  · intro hspaced
    exact ⟨hspaced.alternates hlen, hdepth⟩

theorem derives_iff_isSpaced_of_solve_brackets :
    solve "2*((3)--1)".toList = .ok (.nearest 8) ∧
      ∃ ts, Token.ofText "2*((3)--1)".toList = .ok ts ∧
        (Derives .expression ts ↔ IsSpaced ts) := by
  have h : solve "2*((3)--1)".toList = .ok (.nearest 8) :=
    eq_ok_of_toOption (by decide +kernel)
  exact ⟨h, derives_iff_isSpaced_of_solve h⟩

/-- Two operators stand side by side, and so do two operands: the text is no expression and has a
    value. -/
theorem solve_operators_side_by_side :
    solve "1+*(2)(3)".toList = .ok (.nearest 7) ∧
      ∃ ts, Token.ofText "1+*(2)(3)".toList = .ok ts ∧ ¬ Derives .expression ts := by
  have h : solve "1+*(2)(3)".toList = .ok (.nearest 7) :=
    eq_ok_of_toOption (by decide +kernel)
  have ht : (Token.ofText "1+*(2)(3)".toList).toOption = some [.number false ['1'],
      .operator .addition, .operator .multiplication, .leftBracket, .number false ['2'],
      .rightBracket, .leftBracket, .number false ['3'], .rightBracket] := by
    decide +kernel
  obtain ⟨ts, -, hts, -⟩ := solve_eq_ok_iff.1 h
  refine ⟨h, ts, hts, fun hder => ?_⟩
  rw [hts] at ht
  obtain rfl := Option.some.inj ht
  exact Bool.false_ne_true hder.alternates.2.2.1

end Expression

end Calculator

import Calculator.Proofs.Token.Scan

/-!
# The tokens of a text are its only cut

`IsCut` looks at the neighbours of a token on both sides. A scan knows only whether an operand ends
before the next token, so `IsCutAfter` says the same from left to right (`isCut_iff`). The scan
answers with a list exactly if that list is such a cut (`scan_eq_ok_iff`). Main statement:
`ofText_eq_ok_iff_isCut`, a text has the tokens of its cut, it has at most one, and it has no tokens
exactly if it has none.
-/

namespace Calculator

namespace Token

/-! ## 1. Cuts from left to right -/

/-- The tokens can be cut off one after the other, where `afterOperand` says whether an operand ends
    before them. -/
def IsCutAfter (afterOperand : Bool) : List Token → Prop
  | [] => True
  | tok :: ts =>
      tok.IsLexeme ∧ (tok.isNegative = true → afterOperand = false) ∧
        (∀ s ∈ ts.head?, tok.isNumber = true → s.isNumber = false) ∧
        (∀ w, tok = .operator .subtraction → ts.head? = some (.number false w) →
          afterOperand = true) ∧
        IsCutAfter tok.endsOperand ts

/-- A token that is no unsigned number starts at a boundary. -/
theorem isBoundary_text {tok : Token} (h : tok.IsLexeme) (hpos : ∀ w, tok ≠ .number false w)
    (u : Text) : IsBoundary (tok.text ++ u) := by
  cases tok with
  | number negative t =>
      cases negative with
      | false => exact absurd rfl (hpos t)
      | true =>
          obtain ⟨w, -, rfl⟩ := h
          exact isBoundary_cons.2 ⟨by decide, by decide⟩
  | operator op =>
      refine isBoundary_cons.2 ?_
      cases op <;> decide
  | leftBracket => exact isBoundary_cons.2 ⟨by decide, by decide⟩
  | rightBracket => exact isBoundary_cons.2 ⟨by decide, by decide⟩

theorem endsOperand_of_isNumber {tok : Token} (h : tok.isNumber = true) :
    tok.endsOperand = true := by
  cases tok with
  | number negative t => rfl
  | operator op => simp [isNumber] at h
  | leftBracket => simp [isNumber] at h
  | rightBracket => simp [isNumber] at h

theorem isNumber_of_isNegative {tok : Token} (h : tok.isNegative = true) :
    tok.isNumber = true := by
  cases tok with
  | number negative t => rfl
  | operator op => simp [isNegative] at h
  | leftBracket => simp [isNegative] at h
  | rightBracket => simp [isNegative] at h

theorem isNumber_of_ofChar? {c : Char} {tok : Token} (h : ofChar? c = some tok) :
    tok.isNumber = false := by
  unfold ofChar? at h
  split at h
  · rw [← Option.some.inj h]
    rfl
  · split at h
    · rw [← Option.some.inj h]
      rfl
    · obtain ⟨op, -, rfl⟩ := Option.map_eq_some_iff.1 h
      rfl

theorem isBoundary_flatMap_text {b : Bool} {ts : List Token} (h : IsCutAfter b ts)
    (hpos : ∀ w, ts.head? ≠ some (.number false w)) : IsBoundary (ts.flatMap text) := by
  cases ts with
  | nil => exact isBoundary_nil
  | cons tok ts =>
      refine isBoundary_text h.1 (fun w hw => hpos w ?_) _
      rw [hw]
      rfl

theorem isBoundary_rest {b : Bool} {tok : Token} {ts : List Token} (h : IsCutAfter b (tok :: ts))
    (hn : tok.isNumber = true) : IsBoundary (ts.flatMap text) := by
  refine isBoundary_flatMap_text h.2.2.2.2 fun w hw => ?_
  have := h.2.2.1 _ hw hn
  simp [isNumber] at this

theorem literal?_cons_eq_none {c : Char} {t : Text} (hc : c.isDigit = false) :
    literal? (c :: t) = none :=
  literal?_eq_none_iff.2 (by simpa using hc)

theorem literal?_eq_none_of_isBoundary {u : Text} (hu : IsBoundary u) : literal? u = none := by
  cases u with
  | nil => rfl
  | cons c u => exact literal?_cons_eq_none (isBoundary_cons.1 hu).1

/-- The single character of a token that is no number is cut off as that token. -/
theorem next?_of_ofChar? {b : Bool} {c : Char} {t : Text} {tok : Token} (hc : c.isDigit = false)
    (hn : negated? b (c :: t) = none) (h : ofChar? c = some tok) :
    next? b (c :: t) = some (tok, t) := by
  simp [next?, hn, literal?_cons_eq_none hc, h]

/-- **The first token of a cut is the one that is cut off.** -/
theorem IsCutAfter.next? {b : Bool} {tok : Token} {ts : List Token} (h : IsCutAfter b (tok :: ts)) :
    Token.next? b (tok.text ++ ts.flatMap text) = some (tok, ts.flatMap text) := by
  cases tok with
  | number negative t =>
      have hu := isBoundary_rest h rfl
      cases negative with
      | false =>
          have hl : IsLiteral t := h.1
          obtain ⟨c, r, hcons, hc⟩ := hl.exists_cons
          have hne : c ≠ '-' := by
            rintro rfl
            simp at hc
          have hneg : negated? b (t ++ ts.flatMap text) = none := by
            rw [hcons]
            exact negated?_of_ne hne
          simp [Token.next?, text, hneg, hl.literal?_append hu]
      | true =>
          obtain ⟨w, hl, rfl⟩ := h.1
          have hb : b = false := h.2.1 rfl
          subst hb
          have hneg := (negated?_minus (w ++ ts.flatMap text)).trans (hl.literal?_append hu)
          simp [Token.next?, text, hneg]
  | operator op =>
      by_cases hop : op = .subtraction
      · subst hop
        refine next?_of_ofChar? (by decide) ?_ rfl
        cases b with
        | true => exact negated?_after _
        | false =>
            -- behind no operand the sign would be the number's own
            refine (negated?_minus (ts.flatMap text)).trans ?_
            refine literal?_eq_none_of_isBoundary (isBoundary_flatMap_text h.2.2.2.2 fun w hw => ?_)
            exact Bool.false_ne_true (h.2.2.2.1 w rfl hw)
      · refine next?_of_ofChar? ?_ (negated?_of_ne ?_) ?_
        · cases op <;> rfl
        · intro hc
          cases op with
          | addition => exact absurd hc (by decide)
          | subtraction => exact hop rfl
          | multiplication => exact absurd hc (by decide)
          | division => exact absurd hc (by decide)
        · cases op <;> rfl
  | leftBracket => exact next?_of_ofChar? (by decide) (negated?_of_ne (by decide)) rfl
  | rightBracket => exact next?_of_ofChar? (by decide) (negated?_of_ne (by decide)) rfl

/-- A cut is what the scan finds. -/
theorem IsCutAfter.scan {b : Bool} {ts : List Token} (h : IsCutAfter b ts) (position : Nat) :
    Token.scan position b (ts.flatMap text) = .ok ts := by
  induction ts generalizing b position with
  | nil => exact scan_nil position b
  | cons tok ts ih =>
      rw [List.flatMap_cons, scan_of_next? h.next?, ih h.2.2.2.2]
      rfl

/-- The token that was cut off is a lexeme, and its minus sign is its own only behind no operand. -/
theorem isLexeme_of_next? {b : Bool} {t r : Text} {tok : Token}
    (h : Token.next? b t = some (tok, r)) :
    tok.IsLexeme ∧ (tok.isNegative = true → b = false) := by
  rcases next?_cases h with ⟨w, rfl, hb, hw⟩ | ⟨w, rfl, hw⟩ | ⟨c, -, hc, -⟩
  · exact ⟨⟨w, isLiteral_of_literal? hw, rfl⟩, fun _ => hb⟩
  · refine ⟨isLiteral_of_literal? hw, fun hneg => ?_⟩
    simp [isNegative] at hneg
  · have hn := isNumber_of_ofChar? hc
    refine ⟨?_, fun hneg => ?_⟩
    · cases tok with
      | number negative t => simp [isNumber] at hn
      | operator op => trivial
      | leftBracket => trivial
      | rightBracket => trivial
    · rw [isNumber_of_isNegative hneg] at hn
      simp at hn

theorem not_isDigit_head_of_next? {b : Bool} {t r : Text} {tok : Token}
    (h : Token.next? b t = some (tok, r)) (hn : tok.isNumber = true) :
    ∀ c ∈ r.head?, c.isDigit = false := by
  rcases next?_cases h with ⟨w, rfl, -, hw⟩ | ⟨w, rfl, hw⟩ | ⟨c, htext, hc, -⟩
  · exact isDigit_rest_of_literal? hw
  · exact isDigit_rest_of_literal? hw
  · rw [isNumber_of_ofChar? hc] at hn
    simp at hn

/-- Before a digit a minus sign is an operator only behind an operand. -/
theorem afterOperand_of_next? {b : Bool} {t r : Text}
    (h : Token.next? b t = some (.operator .subtraction, r)) {c : Char} (hc : c ∈ r.head?)
    (hd : c.isDigit = true) : b = true := by
  rcases next?_cases h with ⟨w, heq, -⟩ | ⟨w, heq, -⟩ | ⟨c', htext, -, hneg⟩
  · simp at heq
  · simp at heq
  · have hc' : '-' = c' := (List.cons.inj htext).1
    subst hc'
    cases b with
    | true => rfl
    | false =>
        have := literal?_eq_none_iff.1 hneg c hc
        rw [hd] at this
        simp at this

theorem head?_flatMap_of_unsigned {b : Bool} {w : Text} {ts : List Token}
    (h : IsCutAfter b (.number false w :: ts)) :
    ∃ c ∈ ((Token.number false w :: ts).flatMap text).head?, c.isDigit = true := by
  have hl : IsLiteral w := h.1
  obtain ⟨c, r, rfl, hc⟩ := hl.exists_cons
  exact ⟨c, rfl, hc⟩

/-- **What the scan finds is a cut.** -/
theorem isCutAfter_of_scan {position : Nat} {b : Bool} {t : Text} {ts : List Token}
    (h : Token.scan position b t = .ok ts) : IsCutAfter b ts := by
  fun_induction Token.scan position b t generalizing ts with
  | case1 =>
      obtain rfl := Except.ok.inj h
      trivial
  | case2 position b t _ tok r hnext ih =>
      obtain ⟨ts', hs, rfl⟩ := map_eq_ok_iff.1 h
      have hcut := ih hs
      have hrest := scan_text hs
      obtain ⟨hlex, hneg⟩ := isLexeme_of_next? hnext
      refine ⟨hlex, hneg, fun s hhead hn => ?_, fun w heq hhead => ?_, hcut⟩
      · -- an unsigned number would have gone on, a signed one needs no operand before it
        obtain ⟨ts'', rfl⟩ := List.head?_eq_some_iff.1 hhead
        cases s with
        | number negative w =>
            cases negative with
            | true =>
                have hend := endsOperand_of_isNumber hn
                rw [hcut.2.1 rfl] at hend
                simp at hend
            | false =>
                obtain ⟨c, hc, hd⟩ := head?_flatMap_of_unsigned hcut
                rw [hrest] at hc
                rw [not_isDigit_head_of_next? hnext hn c hc] at hd
                simp at hd
        | operator op => rfl
        | leftBracket => rfl
        | rightBracket => rfl
      · obtain ⟨ts'', rfl⟩ := List.head?_eq_some_iff.1 hhead
        subst heq
        obtain ⟨c, hc, hd⟩ := head?_flatMap_of_unsigned hcut
        rw [hrest] at hc
        exact afterOperand_of_next? hnext hc hd
  | case3 => simp at h

/-- **The scan finds exactly the cuts.** -/
theorem scan_eq_ok_iff {position : Nat} {b : Bool} {t : Text} {ts : List Token} :
    Token.scan position b t = .ok ts ↔ ts.flatMap text = t ∧ IsCutAfter b ts := by
  constructor
  · intro h
    exact ⟨scan_text h, isCutAfter_of_scan h⟩
  · rintro ⟨rfl, h⟩
    exact h.scan position

/-! ## 2. Cuts by neighbours -/

/-- An operand ends with the tokens exactly if the last one ends one. -/
theorem operandAfter_false_iff {pre : List Token} :
    operandAfter false pre = true ↔ ∃ s, pre.getLast? = some s ∧ s.endsOperand = true := by
  rcases List.eq_nil_or_concat pre with rfl | ⟨pre, s, rfl⟩
  · simp [operandAfter]
  · rw [List.concat_eq_append, operandAfter_append]
    simp [operandAfter]

theorem IsCutAfter.drop {b : Bool} {pre ts : List Token} (h : IsCutAfter b (pre ++ ts)) :
    IsCutAfter (operandAfter b pre) ts := by
  induction pre generalizing b with
  | nil => exact h
  | cons tok pre ih => exact ih h.2.2.2.2

theorem IsCutAfter.isLexeme {b : Bool} {ts : List Token} (h : IsCutAfter b ts) :
    ∀ tok ∈ ts, tok.IsLexeme := by
  intro tok htok
  obtain ⟨pre, post, rfl⟩ := List.append_of_mem htok
  exact h.drop.1

theorem IsCutAfter.isApart {b : Bool} {s s' : Token} {post : List Token}
    (h : IsCutAfter b (s :: s' :: post)) : IsApart s s' := by
  obtain ⟨-, -, hnum, -, htail⟩ := h
  constructor
  · rintro ⟨hs, hs'⟩
    rw [hnum s' rfl hs] at hs'
    simp at hs'
  · rintro ⟨rfl, hneg⟩
    have := htail.2.1 hneg
    simp [endsOperand] at this

theorem isCutAfter_of_isCut {t : Text} {ts : List Token} (h : IsCut t ts) (pre : List Token)
    {rest : List Token} (hts : ts = pre ++ rest) :
    IsCutAfter (operandAfter false pre) rest := by
  induction rest generalizing pre with
  | nil => trivial
  | cons tok rest ih =>
      have htail : IsCutAfter tok.endsOperand rest := by
        have := ih (pre ++ [tok]) (by simp [hts])
        rwa [operandAfter_append] at this
      refine ⟨h.lexemes tok (by simp [hts]), fun hneg => ?_, fun s hs hn => ?_,
        fun w htok hs => ?_, htail⟩
      · -- an operand before a signed number would be a number or a closing bracket next to it
        rw [Bool.eq_false_iff]
        intro hop
        obtain ⟨s, hlast, hend⟩ := operandAfter_false_iff.1 hop
        obtain ⟨pre', rfl⟩ := List.getLast?_eq_some_iff.1 hlast
        have hapart := h.apart pre' s tok rest (by simp [hts])
        have hnum := isNumber_of_isNegative hneg
        cases s with
        | number negative w => exact hapart.1 ⟨rfl, hnum⟩
        | rightBracket => exact hapart.2 ⟨rfl, hneg⟩
        | operator op => simp [endsOperand] at hend
        | leftBracket => simp [endsOperand] at hend
      · obtain ⟨rest', rfl⟩ := List.head?_eq_some_iff.1 hs
        rw [Bool.eq_false_iff]
        exact fun hn' => (h.apart pre tok s rest' hts).1 ⟨hn, hn'⟩
      · obtain ⟨rest', rfl⟩ := List.head?_eq_some_iff.1 hs
        subst htok
        obtain ⟨s, hlast, hend⟩ := h.minus pre w rest' hts
        exact operandAfter_false_iff.2 ⟨s, hlast, hend⟩

/-- **The neighbours and the scan from left to right decide alike.** -/
theorem isCut_iff {t : Text} {ts : List Token} :
    IsCut t ts ↔ ts.flatMap text = t ∧ IsCutAfter false ts := by
  constructor
  · intro h
    exact ⟨h.text_eq, isCutAfter_of_isCut h [] rfl⟩
  · rintro ⟨htext, h⟩
    refine ⟨htext, h.isLexeme, fun pre s s' post hts => ?_, fun pre w post hts => ?_⟩
    · subst hts
      exact h.drop.isApart
    · subst hts
      have hop := h.drop.2.2.2.1 w rfl rfl
      obtain ⟨s, hlast, hend⟩ := operandAfter_false_iff.1 hop
      exact ⟨s, hlast, hend⟩

/-! ## 3. The tokens of a text -/

theorem isSupported_of_isDigitOrPoint {c : Char} (h : isDigitOrPoint c = true) :
    isSupported c = true := by
  unfold isDigitOrPoint at h
  unfold isSupported
  rw [h]
  rfl

/-- Lexemes are made of characters of the alphabet. -/
theorem IsLexeme.isSupported {tok : Token} (h : tok.IsLexeme) :
    ∀ c ∈ tok.text, isSupported c = true := by
  intro c hc
  cases tok with
  | number negative t =>
      cases negative with
      | false =>
          have hl : IsLiteral t := h
          exact isSupported_of_isDigitOrPoint (hl.isDigitOrPoint c hc)
      | true =>
          obtain ⟨w, hl, rfl⟩ := h
          rcases List.mem_cons.1 hc with rfl | hc
          · rfl
          · exact isSupported_of_isDigitOrPoint (hl.isDigitOrPoint c hc)
  | operator op =>
      rw [List.mem_singleton.1 hc]
      cases op <;> rfl
  | leftBracket =>
      rw [List.mem_singleton.1 hc]
      rfl
  | rightBracket =>
      rw [List.mem_singleton.1 hc]
      rfl

/-- **A cut of the cleaned text is its list of tokens.** -/
theorem ofText_of_isCutAfter {t : Text} {ts : List Token} (htext : ts.flatMap text = t.clean)
    (h : IsCutAfter false ts) : ofText t = .ok ts := by
  refine ofText_eq_ok_iff.2 ⟨unsupported_eq_nil_iff.2 fun c hc => ?_, scan_eq_ok_iff.2 ⟨htext, h⟩⟩
  rw [← htext] at hc
  obtain ⟨tok, htok, hc⟩ := List.mem_flatMap.1 hc
  exact (h.isLexeme tok htok).isSupported c hc

theorem isCutAfter_of_ofText {t : Text} {ts : List Token} (h : ofText t = .ok ts) :
    ts.flatMap text = t.clean ∧ IsCutAfter false ts :=
  scan_eq_ok_iff.1 (ofText_eq_ok_iff.1 h).2

/-- **The tokens of a text are the only cut of what is left of it without blanks**: there is at most
    one cut of any text, and no tokens are answered exactly if there is none. -/
theorem ofText_eq_ok_iff_isCut (t : Text) :
    (∀ ts, ofText t = .ok ts ↔ IsCut t.clean ts) ∧
      (∀ c ts ts', IsCut c ts → IsCut c ts' → ts = ts') ∧
      ((∃ e, ofText t = .error e) ↔ ¬ ∃ ts, IsCut t.clean ts) := by
  have hok : ∀ ts, ofText t = .ok ts ↔ IsCut t.clean ts := by
    intro ts
    rw [isCut_iff]
    exact ⟨isCutAfter_of_ofText, fun ⟨htext, h⟩ => ofText_of_isCutAfter htext h⟩
  refine ⟨hok, fun c ts ts' h h' => ?_, ?_⟩
  · have hs : Token.scan 0 false c = .ok ts := scan_eq_ok_iff.2 (isCut_iff.1 h)
    have hs' : Token.scan 0 false c = .ok ts' := scan_eq_ok_iff.2 (isCut_iff.1 h')
    exact Except.ok.inj (hs.symm.trans hs')
  · constructor
    · rintro ⟨e, he⟩ ⟨ts, hts⟩
      rw [(hok ts).2 hts] at he
      simp at he
    · intro hnone
      cases ht : ofText t with
      | error e => exact ⟨e, rfl⟩
      | ok ts => exact absurd ⟨ts, (hok ts).1 ht⟩ hnone

end Token

end Calculator

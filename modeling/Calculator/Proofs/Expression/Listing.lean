import Calculator.Expression.Listing
import Calculator.Proofs.Expression.Matching
import Calculator.Proofs.Expression.RoundTrip
import Calculator.Proofs.Number.Decimal
import Calculator.Window.ExpressionPanel

/-!
# Listings lose nothing

What a listing shows can be told from its words. The tokens of a text are got back from theirs, and
the listing, cut into tokens again, is cut as the text was (`Token.listing_keeps_tokens`): the
spaces that it adds are blanks, and a minus sign finds its side without them. The elements of any
postfix form are got back from theirs, each number bit for bit (`Postfix.listing_keeps_elements`),
so that the working of a value leads to that value again.
-/

namespace Calculator

/-! ## 1. Words of tokens -/

theorem Operator.ofSymbol?_of_isDigit {c : Char} (h : c.isDigit = true) : ofSymbol? c = none := by
  cases hs : ofSymbol? c with
  | none => rfl
  | some op =>
      rw [ofSymbol?_eq_some_iff.1 hs] at h
      exact absurd h (by cases op <;> decide)

namespace Token

theorem IsLexeme.isWord {tok : Token} (h : tok.IsLexeme) : Text.IsWord tok.text := by
  refine ⟨?_, fun c hc => isBlank_of_isSupported (h.isSupported c hc)⟩
  cases tok with
  | number negative t =>
      cases negative with
      | false => exact IsLiteral.ne_nil h
      | true =>
          obtain ⟨w, -, rfl⟩ := h
          exact List.cons_ne_nil _ _
  | operator op => exact List.cons_ne_nil _ _
  | leftBracket => exact List.cons_ne_nil _ _
  | rightBracket => exact List.cons_ne_nil _ _

/-- A number is no lone symbol: behind a minus sign of its own a digit follows. -/
theorem IsLexeme.ofWord?_eq_none {negative : Bool} {t : Text} (h : (number negative t).IsLexeme) :
    Operator.ofWord? t = none := by
  cases negative with
  | false =>
      obtain ⟨c, r, rfl, hc⟩ := IsLiteral.exists_cons h
      cases r with
      | nil => exact Operator.ofSymbol?_of_isDigit hc
      | cons d r => rfl
  | true =>
      obtain ⟨w, hw, rfl⟩ := h
      obtain ⟨c, r, rfl, -⟩ := hw.exists_cons
      rfl

/-- A number begins with a minus sign exactly if it is negative. -/
theorem IsLexeme.head?_eq_minus_iff {negative : Bool} {t : Text}
    (h : (number negative t).IsLexeme) : t.head? = some '-' ↔ negative = true := by
  cases negative with
  | false =>
      obtain ⟨c, r, rfl, hc⟩ := IsLiteral.exists_cons h
      have hne : c ≠ '-' := by
        intro heq
        rw [heq] at hc
        exact absurd hc (by decide)
      simp [hne]
  | true =>
      obtain ⟨w, -, rfl⟩ := h
      simp

/-- **A lexeme is got back from its word.** -/
theorem IsLexeme.ofWord_text {tok : Token} (h : tok.IsLexeme) : ofWord tok.text = tok := by
  cases tok with
  | number negative t =>
      have hbracket := h.ne_bracket rfl
      have hleft : t ≠ ['('] := fun heq => (hbracket '(' (by simp [text, heq])).1 rfl
      have hright : t ≠ [')'] := fun heq => (hbracket ')' (by simp [text, heq])).2 rfl
      rw [text, ofWord, if_neg hleft, if_neg hright, h.ofWord?_eq_none]
      simp [h.head?_eq_minus_iff]
  | operator op => cases op <;> rfl
  | leftBracket => rfl
  | rightBracket => rfl

/-! ## 2. The listing of tokens -/

theorem isWord_of_isLexeme {ts : List Token} (h : ∀ tok ∈ ts, tok.IsLexeme) :
    ∀ w ∈ ts.map text, Text.IsWord w :=
  List.forall_mem_map.2 fun tok htok => (h tok htok).isWord

/-- The words of a listing are the texts of the tokens. -/
theorem words_listing {ts : List Token} (h : ∀ tok ∈ ts, tok.IsLexeme) :
    (listing ts).words = ts.map text :=
  Text.words_unwords (isWord_of_isLexeme h)

theorem clean_listing {ts : List Token} (h : ∀ tok ∈ ts, tok.IsLexeme) :
    (listing ts).clean = ts.flatMap text :=
  Text.clean_unwords (isWord_of_isLexeme h)

theorem ofListing_listing {ts : List Token} (h : ∀ tok ∈ ts, tok.IsLexeme) :
    ofListing (listing ts) = ts := by
  have hmap : ts.map (ofWord ∘ text) = ts.map id :=
    List.map_congr_left fun tok htok => (h tok htok).ofWord_text
  rw [ofListing, words_listing h, List.map_map, hmap, List.map_id]

/-- **The listing of the tokens of a text is the text but for blanks**, is cut into the same tokens,
    and has one word for each, from which the token is got back. -/
theorem listing_keeps_tokens {t : Text} {ts : List Token} (h : ofText t = .ok ts) :
    (listing ts).clean = t.clean ∧ ofText (listing ts) = .ok ts ∧
      (listing ts).words = ts.map text ∧ ofListing (listing ts) = ts := by
  obtain ⟨htext, hcut⟩ := isCutAfter_of_ofText h
  have hlex := hcut.isLexeme
  have hclean : (listing ts).clean = t.clean := by
    rw [clean_listing hlex, htext]
  refine ⟨hclean, ?_, words_listing hlex, ofListing_listing hlex⟩
  rw [ofText_congr hclean, h]

/-- Blanks at other places, a minus sign of each kind, and brackets. -/
theorem listing_keeps_tokens_minus_signs :
    ∃ ts, ofText " 2--3.5*( 4)".toList = .ok ts ∧ listing ts = "2 - -3.5 * ( 4 )".toList ∧
      (listing ts).clean = Text.clean " 2--3.5*( 4)".toList ∧ ofText (listing ts) = .ok ts ∧
      (listing ts).words = ts.map text ∧ ofListing (listing ts) = ts := by
  have hwritten : Written 0 (.node .subtraction (.leaf ⟨false, ['2'], .inl (by decide)⟩)
      (.node .multiplication
        (.leaf ⟨true, "3.5".toList, .inr ⟨['3'], ['5'], by decide, by decide, rfl⟩⟩)
        (.leaf ⟨false, ['4'], .inl (by decide)⟩))) _ :=
    .operation (by decide) (.literal _ _)
      (.operation (by decide) (.literal _ _) (.brackets (.literal _ _)))
  have h : ofText " 2--3.5*( 4)".toList = .ok _ := ofText_of_written hwritten (by decide)
  exact ⟨_, h, rfl, listing_keeps_tokens h⟩

/-- A single number is one token of its text. -/
theorem IsLexeme.ofText_number {negative : Bool} {t : Text} (h : (number negative t).IsLexeme) :
    ofText t = .ok [.number negative t] := by
  have hcut : IsCutAfter false [.number negative t] :=
    ⟨h, fun _ => rfl, by simp, by simp, trivial⟩
  have hclean : t.clean = t := h.isWord.clean_eq
  have htext : [number negative t].flatMap text = t.clean := by
    rw [hclean]
    exact List.append_nil t
  exact ofText_of_isCutAfter htext hcut

end Token

/-! ## 3. Words of elements -/

namespace Number

variable {f : BinaryFormat}

/-- **A finite number is listed as a literal with its sign.** -/
theorem isLexeme_listingText (negative : Bool) (a : Magnitude f) :
    (Token.number negative (finite negative a).listingText).IsLexeme := by
  have h := a.shortest.isLiteral_positional
  cases negative with
  | false => exact h
  | true => exact ⟨_, h, rfl⟩

theorem isWord_listingText (x : Number f) : Text.IsWord x.listingText := by
  have hnan : Text.IsWord "NaN".toList := by decide
  have hinfinite : ∀ negative, Text.IsWord (withMinus negative "inf".toList) := by decide
  cases x with
  | nan => exact hnan
  | infinite negative => exact hinfinite negative
  | finite negative a => exact (isLexeme_listingText negative a).isWord

/-- No number is listed as a lone symbol. -/
theorem ofWord?_listingText (x : Number f) : Operator.ofWord? x.listingText = none := by
  cases x with
  | nan => rfl
  | infinite negative => cases negative <;> rfl
  | finite negative a => exact (isLexeme_listingText negative a).ofWord?_eq_none

end Number

namespace Element

theorem isWord_text (e : Element) : Text.IsWord e.text := by
  cases e with
  | number x => exact x.isWord_listingText
  | operator op =>
      have h : (Token.operator op).IsLexeme := trivial
      exact h.isWord

/-- **An element is got back from its word.** -/
theorem ofWord?_text (e : Element) : ofWord? e.text = some e := by
  cases e with
  | number x =>
      rw [text, ofWord?, x.ofWord?_listingText, Number.ofText?_listingText]
      rfl
  | operator op => cases op <;> rfl

theorem mapM_ofWord?_text (es : Postfix) : (es.map text).mapM ofWord? = some es := by
  induction es with
  | nil => rfl
  | cons e es ih =>
      rw [List.map_cons, List.mapM_cons, ofWord?_text, ih]
      rfl

end Element

/-! ## 4. The listing of a postfix form -/

namespace Postfix

theorem ofListing?_listing (es : Postfix) : ofListing? es.listing = some es := by
  have hwords : es.listing.words = es.map Element.text :=
    Text.words_unwords (List.forall_mem_map.2 fun e _ => e.isWord_text)
  rw [ofListing?, hwords, Element.mapM_ofWord?_text]

/-- **The listing of a postfix form is read back as the form**, each number bit for bit; a finite
    number in it is one token; so the form that a panel shows with a value has that value. -/
theorem listing_keeps_elements :
    (∀ es : Postfix, ofListing? es.listing = some es) ∧
      (∀ negative (a : Magnitude .binary64),
        Token.ofText (Number.finite negative a).listingText =
          .ok [.number negative (Number.finite negative a).listingText]) ∧
      ∀ (p : ExpressionPanel) x working, Expression.explain p.entry = .ok (x, working) →
        p.evaluate.working = working ∧ p.evaluate.result = x.resultText ∧
          ∃ es, ofListing? working.elements = some es ∧ es.value = .ok x := by
  refine ⟨ofListing?_listing,
    fun negative a => (Number.isLexeme_listingText negative a).ofText_number,
    fun p x working h => ?_⟩
  have heval : p.evaluate = p.showResult x.resultText working := by
    rw [p.evaluate_eq, h]
  obtain ⟨ts, es, -, -, hvalue, rfl⟩ := Expression.explain_eq_ok_iff.1 h
  rw [heval]
  exact ⟨rfl, rfl, es, ofListing?_listing es, hvalue⟩

/-- A number behind a minus sign of each kind: the listing is `2 -3 -`. -/
theorem listing_keeps_elements_minus_signs :
    ∃ x working, Expression.explain "2--3".toList = .ok (x, working) ∧
      ∃ es, ofListing? working.elements = some es ∧ es.value = .ok x := by
  have hwritten : Written 0 (.node .subtraction (.leaf ⟨false, ['2'], .inl (by decide)⟩)
      (.leaf ⟨true, ['3'], .inl (by decide)⟩)) _ :=
    .operation (by decide) (.literal _ _) (.literal _ _)
  have h : Expression.explain "2--3".toList = .ok (_, _) :=
    Expression.explain_eq_ok_iff.2 ⟨_, _, ofText_of_written hwritten (by decide),
      ofTokens_written hwritten, Tree.value_postOrder _, rfl⟩
  let p : ExpressionPanel := { ExpressionPanel.empty with entry := "2--3".toList }
  exact ⟨_, _, h, (listing_keeps_elements.2.2 p _ _ h).2.2⟩

end Postfix

end Calculator

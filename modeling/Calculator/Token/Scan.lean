import Calculator.Text.Distinct
import Calculator.Token
import Calculator.Token.Literal

/-!
# The tokens of a text

`Token.ofText` cuts the cleaned text into tokens from left to right. Two rules decide:

* a number is the longest literal at its place;
* a minus sign belongs to the literal behind it, unless an operand ends just before it.

A text with characters of no token has no tokens, whatever else is wrong with it. Where no token
starts there is a point that belongs to no literal: the text is malformed there. Main statement:
`ofText_text`, the tokens are the cleaned text.
-/

namespace Calculator

namespace Token

/-! ## 1. The alphabet -/

/-- The character can occur in a token. -/
def isSupported (c : Char) : Bool :=
  c.isDigit || c = '.' || c = '(' || c = ')' || (Operator.ofSymbol? c).isSome

/-- The characters that tokens are made of. -/
def alphabet : List Char :=
  "0123456789.()+-*/".toList

/-- **A character can occur in a token exactly if it is one of the alphabet.** -/
theorem isSupported_iff {c : Char} : isSupported c = true ↔ c ∈ alphabet := by
  constructor
  · intro h
    simp only [isSupported, Bool.or_eq_true, decide_eq_true_eq] at h
    rcases h with (((h | rfl) | rfl) | rfl) | h
    · have hdigits : ∀ d < 10, digitChar d ∈ alphabet := by decide
      obtain ⟨d, hd, rfl⟩ := exists_digitChar h
      exact hdigits d hd
    · decide
    · decide
    · decide
    · obtain ⟨op, hop⟩ := Option.isSome_iff_exists.1 h
      rw [Operator.ofSymbol?_eq_some_iff.1 hop]
      cases op <;> decide
  · intro h
    have hall : alphabet.all isSupported = true := by decide
    exact List.all_eq_true.1 hall c h

/-- The characters of a text that can occur in no token, each once, in increasing order. -/
def unsupported (t : Text) : List Char :=
  Text.distinct (t.filter fun c => !isSupported c)

/-! ## 2. One token -/

/-- The literal that belongs to a minus sign at the head of a text, and what follows it. -/
def negated? (afterOperand : Bool) : Text → Option (Text × Text)
  | '-' :: t => if afterOperand then none else literal? t
  | _ => none

/-- The token that a single character is. -/
def ofChar? (c : Char) : Option Token :=
  if c = '(' then some .leftBracket
  else if c = ')' then some .rightBracket
  else (Operator.ofSymbol? c).map .operator

/-- The token at the head of a text, and what follows it. -/
def next? (afterOperand : Bool) (t : Text) : Option (Token × Text) :=
  match negated? afterOperand t with
  | some (w, rest) => some (.number true ('-' :: w), rest)
  | none =>
      match literal? t with
      | some (w, rest) => some (.number false w, rest)
      | none =>
          match t with
          | [] => none
          | c :: rest => (ofChar? c).map fun tok => (tok, rest)

theorem text_of_ofChar? {c : Char} {tok : Token} (h : ofChar? c = some tok) : tok.text = [c] := by
  unfold ofChar? at h
  split at h
  · next hc =>
      rw [← Option.some.inj h, hc]
      rfl
  · split at h
    · next hc =>
        rw [← Option.some.inj h, hc]
        rfl
    · obtain ⟨op, hop, rfl⟩ := Option.map_eq_some_iff.1 h
      rw [text, Operator.ofSymbol?_eq_some_iff.1 hop]

theorem negated?_append {b : Bool} {t w r : Text} (h : negated? b t = some (w, r)) :
    '-' :: w ++ r = t := by
  unfold negated? at h
  split at h
  · split at h
    · simp at h
    · rw [List.cons_append, literal?_append h]
  · simp at h

/-- **Token and rest are the text.** -/
theorem next?_append {b : Bool} {t r : Text} {tok : Token} (h : next? b t = some (tok, r)) :
    tok.text ++ r = t := by
  unfold next? at h
  split at h
  · next w rest hw =>
      simp only [Option.some.injEq, Prod.mk.injEq] at h
      obtain ⟨rfl, rfl⟩ := h
      exact negated?_append hw
  · split at h
    · next w rest hw =>
        simp only [Option.some.injEq, Prod.mk.injEq] at h
        obtain ⟨rfl, rfl⟩ := h
        exact literal?_append hw
    · split at h
      · simp at h
      · next c rest _ _ _ =>
          obtain ⟨tok', htok, heq⟩ := Option.map_eq_some_iff.1 h
          simp only [Prod.mk.injEq] at heq
          obtain ⟨rfl, rfl⟩ := heq
          rw [text_of_ofChar? htok]
          rfl

theorem text_ne_nil_of_next? {b : Bool} {t r : Text} {tok : Token}
    (h : next? b t = some (tok, r)) : tok.text ≠ [] := by
  unfold next? at h
  split at h
  · simp only [Option.some.injEq, Prod.mk.injEq] at h
    obtain ⟨rfl, -⟩ := h
    simp [text]
  · split at h
    · next w rest hw =>
        simp only [Option.some.injEq, Prod.mk.injEq] at h
        obtain ⟨rfl, -⟩ := h
        exact (isLiteral_of_literal? hw).ne_nil
    · split at h
      · simp at h
      · obtain ⟨tok', htok, heq⟩ := Option.map_eq_some_iff.1 h
        simp only [Prod.mk.injEq] at heq
        obtain ⟨rfl, -⟩ := heq
        rw [text_of_ofChar? htok]
        simp

/-- What follows a token is shorter than the text. -/
theorem next?_length_lt {b : Bool} {t r : Text} {tok : Token} (h : next? b t = some (tok, r)) :
    r.length < t.length := by
  have hpos := List.length_pos_iff.2 (text_ne_nil_of_next? h)
  have := congrArg List.length (next?_append h)
  rw [List.length_append] at this
  omega

/-! ## 3. All tokens -/

/-- The tokens of a text without blanks, which starts at the given position of the whole. -/
def scan (position : Nat) (afterOperand : Bool) (t : Text) : Except Error (List Token) :=
  if t.isEmpty then .ok []
  else
    match _h : next? afterOperand t with
    | some (tok, rest) =>
        (scan (position + tok.text.length) tok.endsOperand rest).map (tok :: ·)
    | none => .error (.malformedNumber position (t.takeWhile (· = '.')))
termination_by t.length
decreasing_by exact next?_length_lt _h

/-- The tokens of a text. -/
def ofText (t : Text) : Except Error (List Token) :=
  let cleaned := t.clean
  let foreign := unsupported cleaned
  if foreign.isEmpty then scan 0 false cleaned else .error (.unsupportedCharacters foreign)

/-- Only what is left without blanks decides. -/
theorem ofText_congr {t t' : Text} (h : t.clean = t'.clean) : ofText t = ofText t' := by
  rw [ofText, ofText, h]

theorem scan_text {position : Nat} {b : Bool} {t : Text} {ts : List Token}
    (h : scan position b t = .ok ts) : ts.flatMap text = t := by
  fun_induction scan position b t generalizing ts with
  | case1 _ _ t ht =>
      simp only [Except.ok.injEq] at h
      subst h
      simpa using ht.symm
  | case2 position b t _ tok rest hnext ih =>
      obtain ⟨ts', hs, rfl⟩ := map_eq_ok_iff.1 h
      rw [List.flatMap_cons, ih hs, next?_append hnext]
  | case3 => simp at h

/-- **The tokens are the cleaned text.** -/
theorem ofText_text {t : Text} {ts : List Token} (h : ofText t = .ok ts) :
    ts.flatMap text = t.clean := by
  dsimp only [ofText] at h
  split at h
  · exact scan_text h
  · simp at h

end Token

end Calculator

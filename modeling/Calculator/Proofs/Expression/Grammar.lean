import Calculator.Expression.Grammar
import Calculator.Postfix.Contents

/-!
# What the grammar asks for

The grammar asks for two things and for nothing else: operands and operators take turns, and
brackets match (`derives_expression_iff`). Where no operand follows an operand, counting numbers and
operators is enough to see that they take turns (`IsSpaced.alternates`).
-/

namespace Calculator

namespace Token

/-! ## 1. Taking turns and matching brackets -/

theorem Alternates.append {b : Bool} {ts ts' : List Token} (h : Alternates b ts)
    (h' : Alternates true ts') : Alternates b (ts ++ ts') := by
  induction ts generalizing b with
  | nil =>
      have hb : b = true := h
      rw [hb]
      exact h'
  | cons tok ts ih => exact ⟨h.1, ih h.2⟩

theorem depth?_append (d : Nat) (ts ts' : List Token) :
    depth? d (ts ++ ts') = (depth? d ts).bind fun d' => depth? d' ts' := by
  induction ts generalizing d with
  | nil => rfl
  | cons tok ts ih =>
      rw [List.cons_append, depth?, depth?]
      cases depthAfter? d tok with
      | none => rfl
      | some d' => exact ih d'

/-- **The bracket that closes an open one splits the tokens.** -/
theorem exists_closing {b : Bool} {k : Nat} {ts : List Token} (h : Alternates b ts)
    (hd : depth? (k + 1) ts = some 0) :
    ∃ inner rest, ts = inner ++ .rightBracket :: rest ∧ Alternates b inner ∧
      depth? k inner = some 0 ∧ Alternates true rest ∧ depth? 0 rest = some 0 := by
  induction ts generalizing b k with
  | nil => simp [depth?] at hd
  | cons tok ts ih =>
      cases tok with
      | number negative text =>
          obtain ⟨inner, rest, rfl, hi, hdi, hr⟩ := ih h.2 hd
          exact ⟨.number negative text :: inner, rest, rfl, ⟨h.1, hi⟩, hdi, hr⟩
      | operator op =>
          obtain ⟨inner, rest, rfl, hi, hdi, hr⟩ := ih h.2 hd
          exact ⟨.operator op :: inner, rest, rfl, ⟨h.1, hi⟩, hdi, hr⟩
      | leftBracket =>
          obtain ⟨inner, rest, rfl, hi, hdi, hr⟩ := ih h.2 hd
          exact ⟨.leftBracket :: inner, rest, rfl, ⟨h.1, hi⟩, hdi, hr⟩
      | rightBracket =>
          cases k with
          | zero =>
              have hb : b = true := by simpa [startsOperand] using h.1
              exact ⟨[], ts, rfl, hb, rfl, h.2, hd⟩
          | succ k =>
              obtain ⟨inner, rest, rfl, hi, hdi, hr⟩ := ih h.2 hd
              exact ⟨.rightBracket :: inner, rest, rfl, ⟨h.1, hi⟩, hdi, hr⟩

end Token

open Token

/-! ## 2. The grammar -/

theorem Derives.alternates {k : Phrase} {ts : List Token} (h : Derives k ts) :
    Alternates false ts := by
  induction h with
  | expression _ ih => exact ih
  | sum _ _ _ ih ih' => exact ih.append ⟨rfl, ih'⟩
  | term _ ih => exact ih
  | product _ _ _ ih ih' => exact ih.append ⟨rfl, ih'⟩
  | number negative text => exact ⟨rfl, rfl⟩
  | brackets _ ih => exact ⟨rfl, ih.append ⟨rfl, rfl⟩⟩

/-- A phrase closes the brackets that it opens, and no others. -/
theorem Derives.depth? {k : Phrase} {ts : List Token} (h : Derives k ts) (d : Nat) :
    Token.depth? d ts = some d := by
  induction h generalizing d with
  | expression _ ih => exact ih d
  | sum _ _ _ ih ih' =>
      rw [depth?_append, ih]
      exact ih' d
  | term _ ih => exact ih d
  | product _ _ _ ih ih' =>
      rw [depth?_append, ih]
      exact ih' d
  | number negative text => rfl
  | brackets _ ih =>
      rw [List.cons_append, Token.depth?]
      show Token.depth? (d + 1) _ = some d
      rw [depth?_append, ih]
      rfl

/-- A factor in front of an expression is taken into its first term or left beside it. -/
theorem Derives.factor_operator {op : Operator} {f ts : List Token} (hf : Derives .factor f)
    (h : Derives .expression ts) : Derives .expression (f ++ .operator op :: ts) := by
  by_cases hop : op = .addition ∨ op = .subtraction
  · exact .sum hop (.term hf) h
  · have hop : op = .multiplication ∨ op = .division := by
      cases op <;> simp at hop ⊢
    cases h with
    | expression h => exact .expression (.product hop hf h)
    | @sum op' ts₁ ts₂ hop' h h' =>
        have := Derives.sum hop' (.product hop hf h) h'
        rwa [List.append_assoc, List.cons_append] at this

/-- A text that starts with an operand starts with a factor. -/
theorem exists_factor {ts : List Token} (h : Alternates false ts) (hd : Token.depth? 0 ts = some 0)
    (ih : ∀ inner : List Token, inner.length < ts.length → Alternates false inner →
      Token.depth? 0 inner = some 0 → Derives .expression inner) :
    ∃ f rest, ts = f ++ rest ∧ f ≠ [] ∧ Derives .factor f ∧ Alternates true rest ∧
      Token.depth? 0 rest = some 0 := by
  cases ts with
  | nil => exact absurd h Bool.false_ne_true
  | cons tok ts =>
      cases tok with
      | number negative text =>
          exact ⟨[.number negative text], ts, rfl, by simp, .number negative text, h.2, hd⟩
      | leftBracket =>
          obtain ⟨inner, rest, rfl, hi, hdi, hr, hdr⟩ := exists_closing (k := 0) h.2 hd
          have hlt : inner.length <
              (Token.leftBracket :: (inner ++ .rightBracket :: rest)).length := by
            rw [List.length_cons, List.length_append]
            omega
          exact ⟨_, rest, by simp, by simp, .brackets (ih inner hlt hi hdi), hr, hdr⟩
      | operator op => exact absurd h.1 Bool.false_ne_true
      | rightBracket => exact absurd h.1 Bool.false_ne_true

theorem derives_expression_of_alternates {ts : List Token} (h : Alternates false ts)
    (hd : Token.depth? 0 ts = some 0) : Derives .expression ts := by
  induction hn : ts.length using Nat.strongRecOn generalizing ts with
  | ind n ih =>
      subst hn
      obtain ⟨f, rest, rfl, hne, hf, hr, hdr⟩ := exists_factor h hd fun inner hlt hi hdi =>
        ih inner.length hlt hi hdi rfl
      cases rest with
      | nil =>
          rw [List.append_nil]
          exact .expression (.term hf)
      | cons tok rest =>
          cases tok with
          | operator op =>
              have hpos := List.length_pos_iff.2 hne
              have hlt : rest.length < (f ++ .operator op :: rest).length := by
                rw [List.length_append, List.length_cons]
                omega
              exact hf.factor_operator (ih rest.length hlt hr.2 hdr rfl)
          | number negative text => exact absurd hr.1 Bool.false_ne_true.symm
          | leftBracket => exact absurd hr.1 Bool.false_ne_true.symm
          | rightBracket => simp [Token.depth?, depthAfter?] at hdr

/-- **The grammar asks for operands and operators in turn and for matching brackets.** -/
theorem derives_expression_iff {ts : List Token} :
    Derives .expression ts ↔ Alternates false ts ∧ Token.depth? 0 ts = some 0 := by
  constructor
  · intro h
    exact ⟨h.alternates, h.depth? 0⟩
  · rintro ⟨h, hd⟩
    exact derives_expression_of_alternates h hd

/-! ## 3. No operand behind an operand -/

namespace Token

theorem IsSpaced.of_cons {tok : Token} {ts : List Token} (h : IsSpaced (tok :: ts)) :
    (∀ s ∈ ts.head?, ¬ (tok.endsOperand = true ∧ s.startsOperand = true)) ∧ IsSpaced ts := by
  constructor
  · intro s hs
    obtain ⟨ts', rfl⟩ := List.head?_eq_some_iff.1 hs
    exact h [] tok s ts' rfl
  · intro pre s s' post hts
    exact h (tok :: pre) s s' post (by rw [hts]; rfl)

theorem Alternates.head? {b : Bool} {ts : List Token} (h : Alternates b ts) :
    ∀ s ∈ ts.head?, ¬ (b = true ∧ s.startsOperand = true) := by
  intro s hs
  obtain ⟨ts', rfl⟩ := List.head?_eq_some_iff.1 hs
  rintro ⟨rfl, hstart⟩
  rw [h.1] at hstart
  exact Bool.false_ne_true hstart

theorem Alternates.drop {b : Bool} {pre ts : List Token} (h : Alternates b (pre ++ ts)) :
    ∃ b', Alternates b' ts := by
  induction pre generalizing b with
  | nil => exact ⟨b, h⟩
  | cons tok pre ih => exact ih h.2

/-- Where operands and operators take turns no operand follows an operand. -/
theorem Alternates.isSpaced {b : Bool} {ts : List Token} (h : Alternates b ts) : IsSpaced ts := by
  rintro pre s s' post rfl
  obtain ⟨b', h'⟩ := h.drop
  exact h'.2.head? s' rfl

/-- **Without an operand behind an operand there are enough operators**: at most one operand goes
    without, and where one does, operands and operators take turns. -/
theorem IsSpaced.length_numbers_le {b : Bool} {ts : List Token} (h : IsSpaced ts)
    (hhead : ∀ s ∈ ts.head?, ¬ (b = true ∧ s.startsOperand = true)) :
    (numbers ts).length + b.toNat ≤ (operators ts).length + 1 ∧
      ((numbers ts).length + b.toNat = (operators ts).length + 1 → Alternates b ts) := by
  induction ts generalizing b with
  | nil =>
      cases b with
      | false => exact ⟨by decide, fun heq => absurd heq (by decide)⟩
      | true => exact ⟨Nat.le_refl _, fun _ => rfl⟩
  | cons tok ts ih =>
      obtain ⟨hnext, htail⟩ := h.of_cons
      obtain ⟨hle, halt⟩ := ih htail hnext
      have hb : tok.startsOperand = true → b = false := by
        intro hstart
        rw [Bool.eq_false_iff]
        exact fun hb => hhead tok rfl ⟨hb, hstart⟩
      cases tok with
      | number negative text =>
          obtain rfl := hb rfl
          have hn : (numbers (.number negative text :: ts)).length = (numbers ts).length + 1 := rfl
          have ho : (operators (.number negative text :: ts)).length = (operators ts).length := rfl
          rw [hn, ho]
          simp only [endsOperand, Bool.toNat_true, Bool.toNat_false] at hle halt ⊢
          exact ⟨hle, fun heq => ⟨rfl, halt heq⟩⟩
      | operator op =>
          have hn : (numbers (.operator op :: ts)).length = (numbers ts).length := rfl
          have ho : (operators (.operator op :: ts)).length = (operators ts).length + 1 := rfl
          rw [hn, ho]
          simp only [endsOperand, Bool.toNat_false] at hle halt
          cases b with
          | false =>
              refine ⟨by simp; omega, fun heq => ?_⟩
              simp at heq
              omega
          | true =>
              refine ⟨by simp; omega, fun heq => ⟨rfl, halt ?_⟩⟩
              simp at heq
              omega
      | leftBracket =>
          obtain rfl := hb rfl
          exact ⟨hle, fun heq => ⟨rfl, halt heq⟩⟩
      | rightBracket =>
          have hn : (numbers (.rightBracket :: ts)).length = (numbers ts).length := rfl
          have ho : (operators (.rightBracket :: ts)).length = (operators ts).length := rfl
          rw [hn, ho]
          simp only [endsOperand, Bool.toNat_true] at hle halt
          cases b with
          | false =>
              refine ⟨by simp; omega, fun heq => ?_⟩
              simp at heq
              omega
          | true => exact ⟨hle, fun heq => ⟨rfl, halt heq⟩⟩

/-- **Counting is enough where no operand follows an operand.** -/
theorem IsSpaced.alternates {ts : List Token} (h : IsSpaced ts)
    (hlen : (numbers ts).length = (operators ts).length + 1) : Alternates false ts :=
  (h.length_numbers_le (b := false) fun _ _ hb => Bool.false_ne_true hb.1).2 hlen

end Token

end Calculator

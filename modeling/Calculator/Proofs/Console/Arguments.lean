import Calculator.Console.Arguments

/-!
# Words of a command line

A word of a subcommand is a value, a flag or unknown. `Form.IsValue` says which words are taken as
values: what is no flag and has no minus sign in front, the minus sign alone, and a signed word that
the subcommand takes nonetheless. A line of values is read value by value (`readForm_value`), an
unknown word ends it (`readForm_unknown`). From this

* `read_binary`: a number, an operator and a number are the operation, if each is a value;
* `read_general`: a text without the letters of flags is the expression, as it stands
  (`isValue_of_alphabet`: what an expression is written with has none of them).
-/

namespace Calculator

/-! ## 1. One word -/

/-- The word is read as a value by the form. -/
def Form.IsValue (form : Form) (word : Text) : Prop :=
  word ≠ "--".toList ∧
    (form.takesSigned word = true ∨ word = ['-'] ∨ word.head? ≠ some '-')

namespace Arguments

/-- **A value is taken, and the rest is read.** -/
theorem readForm_value {form : Form} {word : Text} (h : form.IsValue word) (count : Option Nat)
    (rest : List Text) :
    readForm false form count (word :: rest) =
      (form.take word).bind fun form' => readForm false form' count rest := by
  obtain ⟨hne, h⟩ := h
  rw [readForm.eq_def]
  simp only [if_neg hne, if_neg Bool.false_ne_true]
  by_cases hsigned : form.takesSigned word = true
  · rw [if_pos hsigned]
    rfl
  · rw [if_neg hsigned]
    rcases h with h | rfl | h
    · exact absurd h hsigned
    · rfl
    · cases word with
      | nil => rfl
      | cons c word =>
          have hc : c ≠ '-' := by simpa using h
          split
          · next heq => exact absurd (List.cons.inj heq).1 hc
          · next heq => exact absurd (List.cons.inj heq).1 hc
          · rfl

theorem readForm_of_take {form form' : Form} {word : Text} (h : form.IsValue word)
    (htake : form.take word = .ok form') (count : Option Nat) (rest : List Text) :
    readForm false form count (word :: rest) = readForm false form' count rest := by
  rw [readForm_value h, htake]
  rfl

/-- **A word with a minus sign that is neither a value nor a flag ends the reading.** -/
theorem readForm_unknown {form : Form} {c : Char} {cs : Text}
    (hsigned : form.takesSigned ('-' :: c :: cs) = false) (hc : c ≠ '-')
    (hflag : Flag.ofLetter? Flag.ofSubcommands c = none) (count : Option Nat) (rest : List Text) :
    readForm false form count (('-' :: c :: cs) :: rest) = .error .unknownArgument := by
  have hne : '-' :: c :: cs ≠ "--".toList := by
    intro heq
    exact hc (List.cons.inj (List.cons.inj heq).2).1
  rw [readForm.eq_def]
  simp only [if_neg hne, hsigned, if_neg Bool.false_ne_true]
  rw [hflag]

theorem ofName?_binary : Form.ofName? "binary".toList = some (.binary .nothing none) := rfl

theorem ofName?_general : Form.ofName? "general".toList = some (.general none) := rfl

/-- What comes of the words behind a subcommand. -/
theorem read_of_ofName? {name : Text} {form : Form} (h : Form.ofName? name = some form)
    (rest : List Text) :
    read (name :: rest) = (readForm false form none rest).bind fun (form, count) =>
      form.command.bind fun command => .ok ⟨count.getD 0, command⟩ := by
  rw [read, readFrom.eq_def]
  simp only [h]
  refine congrArg (Except.bind (readForm false form none rest)) (funext fun (form, count) => ?_)
  simp only [Option.or_none]
  rfl

/-! ## 2. Operations -/

section

variable {operands : Operands} {unchecked : Option Text}

theorem isValue_symbol (op : Operator) : (Form.binary operands unchecked).IsValue [op.symbol] := by
  cases op with
  | addition => exact ⟨by decide, .inr (.inr (by decide))⟩
  | subtraction => exact ⟨by decide, .inr (.inl rfl)⟩
  | multiplication => exact ⟨by decide, .inr (.inr (by decide))⟩
  | division => exact ⟨by decide, .inr (.inr (by decide))⟩

/-- A number is a value unless a minus sign stands before what is no plain number. -/
theorem isValue_withMinus {t r : Text} {c : Char} (ht : t = c :: r) (hc : c.isDigit = true)
    {negative : Bool} (h : negative = true → isPlainNumber t = true) :
    (Form.binary operands unchecked).IsValue (Number.withMinus negative t) := by
  have hminus : c ≠ '-' := by
    rintro rfl
    exact absurd hc (by decide)
  subst ht
  cases negative with
  | true =>
      refine ⟨fun heq => hminus (List.cons.inj (List.cons.inj heq).2).1, .inl (h rfl)⟩
  | false =>
      refine ⟨fun heq => hminus (List.cons.inj heq).1, .inr (.inr ?_)⟩
      simpa [Number.withMinus] using hminus

theorem ofLetter?_of_isDigit {known : List Flag} {c : Char} (hc : c.isDigit = true) :
    Flag.ofLetter? known c = none := by
  refine List.find?_eq_none.2 fun flag _ hflag => ?_
  have hletter : flag.letter = c := by simpa using hflag
  rw [← hletter] at hc
  cases flag <;> exact absurd hc (by decide)

/-- **A minus sign before what is no plain number makes a word unknown.** -/
theorem readForm_withMinus {t r : Text} {c : Char} (ht : t = c :: r) (hc : c.isDigit = true)
    (h : isPlainNumber t = false) (count : Option Nat) (rest : List Text) :
    readForm false (.binary operands unchecked) count (Number.withMinus true t :: rest) =
      .error .unknownArgument := by
  subst ht
  have hsigned : (Form.binary operands unchecked).takesSigned ('-' :: c :: r) = false := h
  refine readForm_unknown hsigned ?_ (ofLetter?_of_isDigit hc) count rest
  rintro rfl
  exact absurd hc (by decide)

end

/-- What has been read before the second number. -/
theorem readForm_operator {t : Text} {x : Double} (op : Operator)
    (ht : (Form.binary .nothing none).IsValue t) (hx : Number.ofText? t = some x)
    (rest : List Text) :
    readForm false (.binary .nothing none) none (t :: [op.symbol] :: rest) =
      readForm false (.binary (.first x) (some [op.symbol])) none rest := by
  have hoperator : (Form.binary .nothing (some t)).take [op.symbol] =
      .ok (.binary (.first x) (some [op.symbol])) := by
    simp [Form.take, Form.isFull, Form.check, Operands.add, Operands.readNumber, hx, Except.map]
  rw [readForm_of_take ht rfl, readForm_of_take (isValue_symbol op) hoperator]

/-- **A number, an operator and a number are the operation.** -/
theorem read_binary {t t' : Text} {x y : Double} (op : Operator)
    (ht : (Form.binary .nothing none).IsValue t) (hx : Number.ofText? t = some x)
    (ht' : (Form.binary (.first x) (some [op.symbol])).IsValue t')
    (hy : Number.ofText? t' = some y) :
    read ["binary".toList, t, [op.symbol], t'] = .ok ⟨0, .binary x op y⟩ := by
  have hsecond : (Form.binary (.first x) (some [op.symbol])).take t' =
      .ok (.binary (.firstOperator x op) (some t')) := by
    simp [Form.take, Form.isFull, Form.check, Operands.add, Operands.readOperator,
      Operator.ofText_symbol, Except.map]
  have hcommand : (Form.binary (.firstOperator x op) (some t')).command = .ok (.binary x op y) := by
    simp [Form.command, Form.check, Operands.add, Operands.readNumber, hy, Except.map, bind,
      Except.bind]
  have hform : readForm false (.binary .nothing none) none [t, [op.symbol], t'] =
      .ok (.binary (.firstOperator x op) (some t'), none) := by
    rw [readForm_operator op ht hx, readForm_of_take ht' hsecond]
    rfl
  rw [read_of_ofName? ofName?_binary, hform]
  show (Form.command _).bind _ = _
  rw [hcommand]
  rfl

/-! ## 3. Expressions -/

theorem ofWord?_eq_none {known : List Flag} {t : Text} (h : ∀ flag ∈ known, flag.letter ∉ t)
    (hletter : ∀ flag ∈ known, flag.letter ∈ flag.word) : Flag.ofWord? known t = none := by
  refine List.find?_eq_none.2 fun flag hflag hword => ?_
  have hword : flag.word = t.takeWhile (· ≠ '=') := by simpa using hword
  have hmem : flag.letter ∈ t.takeWhile (· ≠ '=') := by
    rw [← hword]
    exact hletter flag hflag
  exact h flag hflag ((List.takeWhile_prefix _).subset hmem)

/-- **A text without the letters of flags is an expression**, also with minus signs in front. -/
theorem isValue_general {t : Text} (hne : t ≠ "--".toList)
    (h : ∀ flag ∈ Flag.ofSubcommands, flag.letter ∉ t) : (Form.general none).IsValue t := by
  refine ⟨hne, ?_⟩
  rcases t with _ | ⟨c, t⟩
  · exact .inr (.inr (by decide))
  by_cases hc : c = '-'
  · subst hc
    rcases t with _ | ⟨c, t⟩
    · exact .inr (.inl rfl)
    -- a signed word is refused only if flags make it up, and each flag has its letter in it
    refine .inl ?_
    have hrest : ∀ flag ∈ Flag.ofSubcommands, flag.letter ∉ c :: t := fun flag hflag hmem =>
      h flag hflag (List.mem_cons_of_mem _ hmem)
    by_cases hc : c = '-'
    · subst hc
      have hword : Flag.ofWord? Flag.ofSubcommands t = none :=
        ofWord?_eq_none (fun flag hflag hmem => hrest flag hflag (List.mem_cons_of_mem _ hmem))
          (by decide)
      simp [Form.takesSigned, hword]
    · have hletter : Flag.ofLetter? Flag.ofSubcommands c = none := by
        refine List.find?_eq_none.2 fun flag hflag heq => ?_
        exact hrest flag hflag (List.mem_cons.2 (.inl (by simpa using heq)))
      simp [Form.takesSigned, hc, hletter]
  · exact .inr (.inr (by simpa using hc))

/-- **What can be written down is an expression**: no flag has a letter in it, and no minus sign in
    front makes it one. -/
theorem isValue_of_alphabet {t : Text} (hne : t ≠ "--".toList)
    (h : ∀ c ∈ t, c ∈ Token.alphabet ∨ isBlank c = true) : (Form.general none).IsValue t := by
  refine isValue_general hne fun flag _ hflag => ?_
  have hletter : flag.letter ∉ Token.alphabet ∧ isBlank flag.letter = false := by
    cases flag <;> decide
  rcases h flag.letter hflag with hc | hc
  · exact hletter.1 hc
  · exact Bool.false_ne_true (hletter.2.symm.trans hc)

theorem read_general {t : Text} (h : (Form.general none).IsValue t) :
    read ["general".toList, t] = .ok ⟨0, .general t⟩ := by
  have hform : readForm false (.general none) none [t] = .ok (.general (some t), none) := by
    rw [readForm_of_take h rfl]
    rfl
  rw [read_of_ofName? ofName?_general, hform]
  rfl

end Arguments

end Calculator

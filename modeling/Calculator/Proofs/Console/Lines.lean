import Calculator.Proofs.Console.Outcome
import Calculator.Proofs.Decimal.Numeral
import Calculator.Proofs.Expression.Matching

/-!
# Lines of the standard error

An expression is put into the log as it was entered, and an error may show parts of it. Neither can
make two lines of one: the log quotes it, and an error shows no blank of it. Main statement:
`isLine_stderr`, each line that a run leaves on the standard error is one line, whatever the command
holds.
-/

namespace Calculator

open Text (IsLine)

/-! ## 1. Texts on one line -/

theorem Text.IsLine.append {s t : Text} (hs : IsLine s) (ht : IsLine t) : IsLine (s ++ t) := by
  intro hmem
  exact (List.mem_append.1 hmem).elim hs ht

theorem Text.IsLine.cons {c : Char} {t : Text} (hc : c ≠ '\n') (ht : IsLine t) :
    IsLine (c :: t) := by
  intro hmem
  exact (List.mem_cons.1 hmem).elim (fun h => hc h.symm) ht

theorem isLine_nil : IsLine [] :=
  List.not_mem_nil

/-- What holds of each character of a text and not of the line feed keeps the text on one line. -/
theorem isLine_of_forall {p : Char → Bool} {t : Text} (h : ∀ c ∈ t, p c = true)
    (hp : p '\n' = false) : IsLine t := by
  intro hmem
  rw [h _ hmem] at hp
  exact Bool.false_ne_true hp.symm

theorem isLine_of_isDigit {t : Text} (h : ∀ c ∈ t, c.isDigit = true) : IsLine t :=
  isLine_of_forall h (by decide)

theorem isLine_digits (n : Nat) : IsLine (digits n) :=
  isLine_of_isDigit isDigit_of_mem_digits

/-! ## 2. Quoted texts -/

theorem isLine_toDigits (n : Nat) : IsLine (Nat.toDigits 16 n) := by
  induction n using Nat.strong_induction_on with
  | _ n ih =>
      have hdigit : ∀ d, IsLine [Nat.digitChar d] := fun d =>
        isLine_nil.cons (Nat.digitChar_ne '\n' (by decide))
      rw [Nat.toDigits_eq_if (by decide)]
      split
      · exact hdigit n
      · exact (ih _ (by omega)).append (hdigit _)

theorem isLine_escaped (c : Char) : IsLine (Text.escaped c) := by
  by_cases hc : c = '\n'
  · subst hc
    decide
  · have hself : IsLine [c] := isLine_nil.cons hc
    have hcode : IsLine (Text.codePointEscape c) :=
      IsLine.append (IsLine.append (by decide) (isLine_toDigits _)) (by decide)
    unfold Text.escaped
    repeat' split
    all_goals first | decide | exact hcode | exact hself

/-- **A quoted text is one line**, whatever is quoted. -/
theorem isLine_quoted (t : Text) : IsLine t.quoted := by
  have hescaped : IsLine (t.flatMap Text.escaped) := by
    intro hmem
    obtain ⟨c, -, hc⟩ := List.mem_flatMap.1 hmem
    exact isLine_escaped c hc
  exact IsLine.append (IsLine.append (by decide) hescaped) (by decide)

/-! ## 3. Numbers -/

theorem isLine_signedDigits (z : Int) : IsLine (Decimal.signedDigits z) := by
  unfold Decimal.signedDigits
  split
  · exact (isLine_digits _).cons (by decide)
  · exact isLine_digits _

theorem isLine_scientific (d : Decimal) : IsLine d.scientific := by
  obtain ⟨first, others, -, hfirst, hothers, -, htext⟩ := d.exists_scientific
  have hne : first ≠ '\n' := by
    rintro rfl
    exact absurd hfirst (by decide)
  have hpoint : IsLine (if others.isEmpty then [] else '.' :: others) := by
    split
    · exact isLine_nil
    · exact (isLine_of_isDigit hothers).cons (by decide)
  have hexponent : IsLine ('e' :: Decimal.signedDigits (d.exponent + others.length)) :=
    (isLine_signedDigits _).cons (by decide)
  rw [htext]
  exact (hpoint.cons hne).append hexponent

theorem isLine_positionalWithPoint (d : Decimal) : IsLine d.positionalWithPoint := by
  obtain ⟨fraction, hfraction, htext⟩ := d.exists_positionalWithPoint
  rw [htext]
  have hpoint : IsLine ('.' :: fraction) := (isLine_of_isDigit hfraction.2).cons (by decide)
  exact (isLine_of_isDigit d.isDigits_wholeDigits.2).append hpoint

theorem isLine_resultText {f : BinaryFormat} (x : Number f) : IsLine x.resultText := by
  have hminus : ∀ negative {t : Text}, IsLine t → IsLine (Number.withMinus negative t) := by
    intro negative t ht
    cases negative with
    | false => exact ht
    | true => exact ht.cons (by decide)
  cases x with
  | nan =>
      show IsLine "NaN".toList
      decide
  | infinite negative => exact hminus negative (by decide)
  | finite negative a =>
      refine hminus negative ?_
      unfold Number.magnitudeText
      split
      · exact isLine_scientific _
      · exact isLine_positionalWithPoint _

/-! ## 4. Errors -/

theorem isLine_quotedList {cs : List Char} (h : IsLine cs) : IsLine (Error.quotedList cs) := by
  fun_induction Error.quotedList cs with
  | case1 => exact isLine_nil
  | case2 c => exact IsLine.append (IsLine.append (by decide) h) (by decide)
  | case3 c cs _ ih =>
      have hc : IsLine [c] := fun hmem => h (List.mem_cons.2 (.inl (List.mem_singleton.1 hmem)))
      have hcs : IsLine cs := fun hmem => h (List.mem_cons_of_mem _ hmem)
      have hquoted : IsLine ("'".toList ++ [c] ++ "', ".toList) :=
        IsLine.append (IsLine.append (by decide) hc) (by decide)
      exact hquoted.append (ih hcs)

/-- A scan fails only at points that belong to no number. -/
theorem Token.scan_eq_error {position : Nat} {b : Bool} {t : Text} {e : Error}
    (h : scan position b t = .error e) :
    ∃ n, ∃ u : Text, e = .malformedNumber n (u.takeWhile (· = '.')) := by
  fun_induction scan position b t with
  | case1 => simp at h
  | case2 position b t _ tok rest _ ih => exact ih (map_eq_error_iff.1 h)
  | case3 position b t _ _ => exact ⟨position, t, (Except.error.inj h).symm⟩

theorem isLine_message_of_scan {position : Nat} {b : Bool} {t : Text} {e : Error}
    (h : Token.scan position b t = .error e) : IsLine e.message := by
  obtain ⟨n, u, rfl⟩ := Token.scan_eq_error h
  have hpoints : IsLine (u.takeWhile (· = '.')) :=
    isLine_of_forall (fun _ hc => List.all_eq_true.1 List.all_takeWhile _ hc) (by decide)
  have hposition : IsLine ("nombre mal formé en position ".toList ++ digits n ++ ": '".toList) :=
    IsLine.append (IsLine.append (by decide) (isLine_digits n)) (by decide)
  exact (hposition.append hpoints).append (by decide)

/-- **The error of an expression is one line**: a line feed is a blank, and no blank is reported. -/
theorem isLine_message_of_solve {t : Text} {e : Error} (h : Expression.solve t = .error e) :
    IsLine e.message := by
  cases ht : Token.ofText t with
  | error e' =>
      rw [Expression.solve_of_ofText_eq_error ht] at h
      obtain rfl := Except.error.inj h
      unfold Token.ofText at ht
      dsimp only at ht
      split at ht
      · exact isLine_message_of_scan ht
      · obtain rfl := Except.error.inj ht
        refine IsLine.append (by decide) (isLine_quotedList fun hmem => ?_)
        have hclean := (List.mem_filter.1 (Text.mem_distinct.1 hmem)).1
        exact absurd (List.mem_filter.1 hclean).2 (by decide)
  | ok ts =>
      have hconstant : e = .unmatchedRight ∨ e = .unmatchedLeft ∨ e = .divisionByZero ∨
          e = .invalidExpression := by
        rcases Expression.solve_cases ht with ⟨-, hs⟩ | ⟨-, -, hs⟩ | ⟨-, -, es, -, hs⟩
        · exact .inl (Except.error.inj (h.symm.trans hs))
        · exact .inr (.inl (Except.error.inj (h.symm.trans hs)))
        · exact .inr (.inr (Postfix.value_eq_error (hs.symm.trans h)))
      rcases hconstant with rfl | rfl | rfl | rfl
      all_goals
        show IsLine (String.toList _)
        decide

/-! ## 5. Runs -/

theorem isLine_description (c : Command) : IsLine c.description := by
  cases c with
  | binary x op y =>
      have hname : IsLine op.name := by cases op <;> decide
      have hfirst : IsLine ("Binary \x7b first_number: ".toList ++ x.resultText) :=
        IsLine.append (by decide) (isLine_resultText x)
      have hoperator : IsLine (", operator: ".toList) := by decide
      have hsecond : IsLine (", second_number: ".toList) := by decide
      exact ((((hfirst.append hoperator).append hname).append hsecond).append
        (isLine_resultText y)).append (by decide)
  | general t =>
      have hexpression : IsLine ("General \x7b expression: ".toList ++ t.quoted) :=
        IsLine.append (by decide) (isLine_quoted t)
      exact hexpression.append (by decide)
  | window => decide

/-- **An event is one line of the log.** -/
theorem isLine_line (e : Event) : IsLine e.line := by
  have hlevel : IsLine e.level.name := by
    cases e.level <;> decide
  have htarget : IsLine e.target := by
    unfold Event.target
    split <;> decide
  have hmessage : IsLine e.message := by
    cases e with
    | tokenized n => exact IsLine.append (by decide) (isLine_digits n)
    | converted n => exact IsLine.append (by decide) (isLine_digits n)
    | evaluated t x =>
        have hexpression : IsLine ("expression évaluée expression=".toList ++ t.quoted) :=
          IsLine.append (by decide) (isLine_quoted t)
        exact (hexpression.append (by decide)).append (isLine_resultText x)
    | completed c x =>
        have hcommand : IsLine ("calcul terminé commande=".toList ++ c.description) :=
          IsLine.append (by decide) (isLine_description c)
        exact (hcommand.append (by decide)).append (isLine_resultText x)
    | windowFailed => decide
  exact (((hlevel.append (by decide)).append htarget).append (by decide)).append hmessage

/-- The error that a calculation ends with is one line. -/
theorem isLine_message_of_value? {c : Command} {e : Error} (h : c.value? = some (.error e)) :
    IsLine e.message := by
  cases c with
  | binary x op y =>
      have hzero := Option.some.inj h
      rw [Operator.calculate_eq_apply] at hzero
      rw [Operator.apply_eq_error hzero]
      decide
  | general t => exact isLine_message_of_solve (Option.some.inj h)
  | window => exact nomatch h

/-- **Each line of the standard error is one line**, whatever the command holds: no expression can
    forge a line of the log. -/
theorem isLine_stderr (c : Command) (n : Nat) : ∀ line ∈ (c.run n).stderr, IsLine line := by
  have hlog : ∀ events, ∀ line ∈ logLines n events, IsLine line := by
    intro events line hline
    obtain ⟨e, -, rfl⟩ := List.mem_map.1 hline
    exact isLine_line e
  have hlines : ∀ events message, IsLine message →
      ∀ line ∈ logLines n events ++ [errorLine message], IsLine line := by
    intro events message hmessage line hline
    rcases List.mem_append.1 hline with hline | hline
    · exact hlog events line hline
    · rw [List.mem_singleton.1 hline]
      exact IsLine.append (by decide) hmessage
  cases htraced : c.traced? with
  | none =>
      rw [Command.run, htraced]
      exact hlines _ _ isLine_nil
  | some traced =>
      obtain ⟨events, r⟩ := traced
      cases r with
      | ok x =>
          rw [Command.run_of_ok htraced]
          exact hlog events
      | error e =>
          have hvalue : c.value? = some (.error e) := by
            rw [← Command.traced?_snd, htraced]
            rfl
          rw [Command.run_of_error htraced]
          exact hlines events _ (isLine_message_of_value? hvalue)

end Calculator

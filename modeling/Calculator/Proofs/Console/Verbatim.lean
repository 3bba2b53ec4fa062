import Calculator.Proofs.Console.Arguments
import Calculator.Proofs.Console.Log
import Calculator.Proofs.Number.Decimal

/-!
# An expression reaches the calculation as it stands

The words of a command line are flags, numbers and texts, and a minus sign may begin any of them.
What an expression is written with is never taken for a flag (`Arguments.isValue_of_alphabet`), and
a run without a flag logs nothing (`Expression.logLines_events`). Main statement:
`read_general_outcome`, the run of such a text answers with the value of the text and with nothing
else.
-/

namespace Calculator

namespace Command

variable {t : Text}

/-- **A result is printed exactly if it is the value**, bit for bit. -/
theorem run_general_eq_result_iff {x : Double} :
    (general t).run 0 = ⟨0, answerLine x ++ "\n".toList, []⟩ ↔ Expression.solve t = .ok x := by
  cases h : Expression.solve t with
  | ok y =>
      have hline : answerLine y ++ "\n".toList = answerLine x ++ "\n".toList ↔ y = x :=
        (List.append_left_inj _).trans ((List.append_right_inj _).trans Number.resultText_inj)
      rw [run_general_of_ok h, (Expression.logLines_events t).1]
      simp only [Outcome.mk.injEq, hline, true_and, and_true, Except.ok.injEq]
  | error e =>
      rw [run_general_of_error h]
      exact iff_of_false (fun hrun => nomatch congrArg Outcome.code hrun) nofun

/-- **A message is reported exactly if it is that of the error.** -/
theorem run_general_eq_message_iff {m : Text} :
    (general t).run 0 = ⟨1, [], [errorLine m]⟩ ↔
      ∃ e, Expression.solve t = .error e ∧ e.message = m := by
  cases h : Expression.solve t with
  | ok y =>
      rw [run_general_of_ok h]
      exact iff_of_false (fun hrun => nomatch congrArg Outcome.code hrun)
        (fun ⟨_, he, _⟩ => nomatch he)
  | error e =>
      have hline : errorLine e.message = errorLine m ↔ e.message = m := List.append_right_inj _
      rw [run_general_of_error h, (Expression.logLines_events t).1]
      simp only [List.nil_append, Outcome.mk.injEq, List.singleton_inj, hline, true_and,
        Except.error.injEq, exists_eq_left']

end Command

/-- **An expression is passed through untouched.** A text of digits, points, operators, brackets and
    blanks that is not the end of the flags is the expression of the command as it stands, without a
    flag, whatever minus signs it begins with. The program prints a result and ends with code 0
    exactly if the result is the value of the text, and prints nothing, reports a message and ends
    with code 1 exactly if the message is that of the error of the text. -/
theorem read_general_outcome {t : Text} (hend : t ≠ "--".toList)
    (h : ∀ c ∈ t, c ∈ Token.alphabet ∨ isBlank c = true) :
    let arguments := Arguments.read ["general".toList, t]
    let outcome := arguments.map fun a => a.command.run a.verbosity
    arguments = .ok ⟨0, .general t⟩ ∧
    (∀ x : Double,
      outcome = .ok ⟨0, "Result = ".toList ++ x.resultText ++ "\n".toList, []⟩ ↔
        Expression.solve t = .ok x) ∧
    ∀ m, outcome = .ok ⟨1, [], ["Error: ".toList ++ m]⟩ ↔
      ∃ e, Expression.solve t = .error e ∧ e.message = m := by
  intro arguments outcome
  have harguments : arguments = .ok ⟨0, .general t⟩ :=
    Arguments.read_general (Arguments.isValue_of_alphabet hend h)
  have houtcome : outcome = .ok ((Command.general t).run 0) := by
    show arguments.map _ = _
    rw [harguments]
    rfl
  rw [houtcome]
  refine ⟨harguments, fun x => ?_, fun m => ?_⟩
  · rw [Except.ok.injEq]
    exact Command.run_general_eq_result_iff
  · rw [Except.ok.injEq]
    exact Command.run_general_eq_message_iff

/-- A minus sign and a blank before a value, two minus signs before what is no expression. -/
theorem read_general_outcome_minus_signs :
    (Arguments.read ["general".toList, "- 1 -\t-2".toList]).map
        (fun a => a.command.run a.verbosity) =
      .ok ⟨0, "Result = ".toList ++ "1.0".toList ++ "\n".toList, []⟩ ∧
    Arguments.read ["general".toList, "--1".toList] = .ok ⟨0, .general "--1".toList⟩ ∧
    (Arguments.read ["general".toList, "--1".toList]).map (fun a => a.command.run a.verbosity) =
      .ok ⟨1, [], ["Error: ".toList ++ "expression invalide".toList]⟩ := by
  obtain ⟨-, hresult, -⟩ :=
    read_general_outcome (t := "- 1 -\t-2".toList) (by decide)
      (List.forall_iff_forall_mem.1 (by decide))
  obtain ⟨hread, -, hmessage⟩ :=
    read_general_outcome (t := "--1".toList) (by decide) (List.forall_iff_forall_mem.1 (by decide))
  have hone : (Number.ofRat false 1 : Double).resultText = "1.0".toList := by decide +kernel
  refine ⟨?_, hread, (hmessage _).2 ⟨.invalidExpression, by decide +kernel, rfl⟩⟩
  rw [← hone]
  exact (hresult _).2 (by decide +kernel)

end Calculator

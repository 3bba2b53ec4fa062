import Calculator.Proofs.Console.Lines
import Calculator.Proofs.Postfix.Conservation

/-!
# The log is the trace of the stages

What an event writes is told as text: a line starts with the level of its event
(`Event.ofLine?_line`), and the lines of the four stages are given up to the counts and the value in
them (`Event.line_of_head`). So what a verbosity leaves of a log can be read off its lines
(`logLines_eq_filter`). An expression goes in one of four ways, told apart by how many of its stages
report something (`Expression.events_cases`, `Expression.length_events`); what it reports are the
first lines of the four stages (`Expression.exists_stageLines`). Main statement: `run_general_log`,
the log of a run is the trace of the stages, and the answer is the same with more of it or less.
-/

namespace Calculator

/-! ## 1. Lines -/

theorem Level.ofLine?_name (level : Level) (rest : Text) :
    ofLine? (level.name ++ (" ".toList ++ rest)) = some level := by
  cases level <;> rfl

namespace Event

/-- **A line starts with the level of its event.** -/
theorem ofLine?_line (e : Event) : Level.ofLine? e.line = some e.level := by
  unfold line
  rw [List.append_assoc, List.append_assoc, List.append_assoc]
  exact Level.ofLine?_name e.level _

/-- A line whose head is one text, up to where its message goes on with what was found. -/
theorem line_of_head {e : Event} {level target said head : String} {found : Text}
    (hlevel : e.level.name = level.toList) (htarget : e.target = target.toList)
    (hmessage : e.message = said.toList ++ found)
    (hhead : level ++ " " ++ target ++ ": " ++ said = head) : e.line = head.toList ++ found := by
  rw [← hhead, line, hlevel, htarget, hmessage]
  simp only [String.toList_append, List.append_assoc]

theorem line_tokenized (n : Nat) : (tokenized n).line =
    "TRACE calculatrice_infixe::noyau::jetons: tokenisation terminée jetons=".toList ++ digits n :=
  line_of_head rfl rfl rfl rfl

theorem line_converted (n : Nat) : (converted n).line =
    "TRACE calculatrice_infixe::noyau::rpn: conversion postfixée terminée elements=".toList ++
      digits n :=
  line_of_head rfl rfl rfl rfl

theorem line_evaluated (t : Text) (x : Double) : (evaluated t x).line =
    "DEBUG calculatrice_infixe::noyau::eval: expression évaluée expression=".toList ++ t.quoted ++
      " valeur=".toList ++ x.resultText := by
  have hmessage : (evaluated t x).message = "expression évaluée expression=".toList ++
      (t.quoted ++ (" valeur=".toList ++ x.resultText)) := List.append_assoc _ _ _
  rw [List.append_assoc, List.append_assoc]
  exact line_of_head rfl rfl hmessage rfl

theorem line_completed (t : Text) (x : Double) : (completed (.general t) x).line =
    "INFO calculatrice_infixe::console: calcul terminé commande=General \x7b expression: ".toList ++
      t.quoted ++ " \x7d".toList ++ " valeur=".toList ++ x.resultText := by
  have hmessage : (completed (.general t) x).message =
      ("calcul terminé commande=" ++ "General \x7b expression: ").toList ++
        (t.quoted ++ (" \x7d".toList ++ (" valeur=".toList ++ x.resultText))) := by
    show "calcul terminé commande=".toList ++ ("General \x7b expression: ".toList ++ t.quoted ++
      " \x7d".toList) ++ " valeur=".toList ++ x.resultText = _
    simp only [String.toList_append, List.append_assoc]
  rw [List.append_assoc, List.append_assoc, List.append_assoc]
  exact line_of_head rfl rfl hmessage rfl

end Event

/-- **What a verbosity leaves of a log is told by its lines.** -/
theorem logLines_eq_filter (n : Nat) (events : List Event) :
    logLines n events =
      (events.map Event.line).filter fun line => (Level.ofLine? line).any (Level.admits n) := by
  have hlevel : ((fun line => (Level.ofLine? line).any (Level.admits n)) ∘ Event.line) =
      fun e => Level.admits n e.level := by
    funext e
    rw [Function.comp_apply, Event.ofLine?_line, Option.any_some]
  rw [logLines, List.filter_map, hlevel]

/-! ## 2. Stages -/

namespace Expression

/-- **The four ways an expression can go**, by how many stages report. -/
theorem events_cases (t : Text) :
    (∃ e, Token.ofText t = .error e ∧ events t = []) ∨
      (∃ ts e, Token.ofText t = .ok ts ∧ Postfix.ofTokens ts = .error e ∧
        events t = [.tokenized ts.length]) ∨
      (∃ ts es e, Token.ofText t = .ok ts ∧ Postfix.ofTokens ts = .ok es ∧ es.value = .error e ∧
        events t = [.tokenized ts.length, .converted es.length]) ∨
      ∃ ts es x, Token.ofText t = .ok ts ∧ Postfix.ofTokens ts = .ok es ∧ es.value = .ok x ∧
        events t = [.tokenized ts.length, .converted es.length, .evaluated t x,
          .completed (.general t) x] := by
  unfold events stages
  cases ht : Token.ofText t with
  | error e => exact .inl ⟨e, rfl, rfl⟩
  | ok ts =>
      cases he : Postfix.ofTokens ts with
      | error e =>
          refine .inr (.inl ⟨ts, e, rfl, he, ?_⟩)
          simp only [Except.toOption, Option.bind_some, he]
          rfl
      | ok es =>
          cases hv : es.value with
          | error e =>
              refine .inr (.inr (.inl ⟨ts, es, e, rfl, he, hv, ?_⟩))
              simp only [Except.toOption, Option.bind_some, he, hv]
              rfl
          | ok x =>
              refine .inr (.inr (.inr ⟨ts, es, x, rfl, he, hv, ?_⟩))
              simp only [Except.toOption, Option.bind_some, he, hv]
              rfl

/-- What is left of the lines at each verbosity that does not admit all of them. -/
theorem logLines_events (t : Text) :
    logLines 0 (events t) = [] ∧
      logLines 1 (events t) = ((events t).map Event.line).drop 3 ∧
      logLines 2 (events t) = ((events t).map Event.line).drop 2 := by
  rcases events_cases t with ⟨_, -, h⟩ | ⟨_, _, -, -, h⟩ | ⟨_, _, _, -, -, -, h⟩ |
    ⟨_, _, _, -, -, -, h⟩
  all_goals
    rw [h]
    exact ⟨rfl, rfl, rfl⟩

/-- **One stage after the other succeeds**, and with the value the last two. -/
theorem length_events (t : Text) :
    (0 < (events t).length ↔ ∃ ts, Token.ofText t = .ok ts) ∧
      (1 < (events t).length ↔
        ∃ ts es, Token.ofText t = .ok ts ∧ Postfix.ofTokens ts = .ok es) ∧
      (2 < (events t).length ↔ ∃ x, solve t = .ok x) ∧
      ((events t).length = 4 ↔ ∃ x, solve t = .ok x) := by
  rcases events_cases t with ⟨e, ht, h⟩ | ⟨ts, e, ht, he, h⟩ | ⟨ts, es, e, ht, he, hv, h⟩ |
    ⟨ts, es, x, ht, he, hv, h⟩
  · simp [h, ht, solve_of_ofText_eq_error ht]
  · simp [h, ht, he, solve_of_ofText ht, Except.bind]
  · simp [h, ht, he, hv, solve_of_ofText ht, Except.bind]
  · simp [h, ht, he, hv, solve_of_ofText ht, Except.bind]

theorem line_tokenized_prefix (t : Text) (n k : Nat) (value : Text) :
    [Event.line (.tokenized n)] <+: stageLines t n k value := by
  rw [Event.line_tokenized]
  exact List.take_prefix 1 (stageLines t n k value)

theorem line_converted_prefix (t : Text) (n k : Nat) (value : Text) :
    [Event.line (.tokenized n), Event.line (.converted k)] <+: stageLines t n k value := by
  rw [Event.line_tokenized, Event.line_converted]
  exact List.take_prefix 2 (stageLines t n k value)

theorem map_line_eq_stageLines (t : Text) (n k : Nat) (x : Double) :
    [.tokenized n, .converted k, .evaluated t x, .completed (.general t) x].map Event.line =
      stageLines t n k x.resultText := by
  simp only [List.map_cons, List.map_nil, Event.line_tokenized, Event.line_converted,
    Event.line_evaluated, Event.line_completed, stageLines]

/-- **What is reported are the first lines of the four stages**, and the brackets are what the
    second stage does not count. -/
theorem exists_stageLines (t : Text) : ∃ tokens elements value,
    (events t).map Event.line <+: stageLines t tokens elements value ∧
      (∀ ts, Token.ofText t = .ok ts → tokens = ts.length ∧
        ∀ es, Postfix.ofTokens ts = .ok es → elements = es.length) ∧
      elements + (t.count '(' + t.count ')') = tokens ∧
      ∀ x, solve t = .ok x → value = x.resultText := by
  have hbrackets : ∀ {ts : List Token}, Token.ofText t = .ok ts →
      t.count '(' + t.count ')' = ts.countP Token.isBracket := fun ht =>
    (Token.countP_isBracket_of_ofText ht).symm
  have hcount : ∀ {ts : List Token} {es : Postfix}, Token.ofText t = .ok ts →
      Postfix.ofTokens ts = .ok es → es.length + (t.count '(' + t.count ')') = ts.length := by
    intro ts es ht he
    rw [hbrackets ht]
    exact Postfix.length_ofTokens he
  have htokens : ∀ {ts ts' : List Token}, Token.ofText t = .ok ts → Token.ofText t = .ok ts' →
      ts = ts' := fun ht hts => Except.ok.inj (ht.symm.trans hts)
  have helements : ∀ {ts : List Token} {es : Postfix}, Token.ofText t = .ok ts →
      Postfix.ofTokens ts = .ok es → ∀ ts', Token.ofText t = .ok ts' →
        ts.length = ts'.length ∧
          ∀ es', Postfix.ofTokens ts' = .ok es' → es.length = es'.length := by
    intro ts es ht he ts' hts
    obtain rfl := htokens ht hts
    exact ⟨rfl, fun es' hes => congrArg List.length (Except.ok.inj (he.symm.trans hes))⟩
  -- where a stage fails, what it would have counted is open and fits the brackets
  rcases events_cases t with ⟨e, ht, h⟩ | ⟨ts, e, ht, he, h⟩ | ⟨ts, es, e, ht, he, hv, h⟩ |
    ⟨ts, es, x, ht, he, hv, h⟩
  · refine ⟨t.count '(' + t.count ')', 0, [], ?_, ?_, Nat.zero_add _, ?_⟩
    · rw [h]
      exact List.nil_prefix
    · intro ts hts
      exact nomatch ht.symm.trans hts
    · intro x hx
      exact nomatch (solve_of_ofText_eq_error ht).symm.trans hx
  · refine ⟨ts.length, ts.length - (t.count '(' + t.count ')'), [], ?_, ?_, ?_, ?_⟩
    · rw [h]
      exact line_tokenized_prefix t _ _ _
    · intro ts' hts
      obtain rfl := htokens ht hts
      exact ⟨rfl, fun es hes => nomatch he.symm.trans hes⟩
    · rw [hbrackets ht]
      exact Nat.sub_add_cancel List.countP_le_length
    · intro x hx
      rw [solve_of_ofText ht, he] at hx
      exact nomatch hx
  · refine ⟨ts.length, es.length, [], ?_, helements ht he, hcount ht he, ?_⟩
    · rw [h]
      exact line_converted_prefix t _ _ _
    · intro x hx
      rw [solve_of_ofText ht, he] at hx
      exact nomatch hv.symm.trans hx
  · refine ⟨ts.length, es.length, x.resultText, ?_, helements ht he, hcount ht he, ?_⟩
    · refine ⟨[], ?_⟩
      rw [List.append_nil, h, map_line_eq_stageLines]
    · intro y hy
      rw [solve_of_ofText ht, he] at hy
      rw [Except.ok.inj (hv.symm.trans hy)]

end Expression

/-! ## 3. Runs -/

namespace Command

variable {t : Text}

/-- A run reports the events of the text and ends with its value. -/
theorem traced?_general (t : Text) :
    (general t).traced? = some (Expression.events t, Expression.solve t) := by
  rcases Expression.events_cases t with ⟨e, ht, hevents⟩ | ⟨ts, e, ht, he, hevents⟩ |
    ⟨ts, es, e, ht, he, hv, hevents⟩ | ⟨ts, es, x, ht, he, hv, hevents⟩
  · rw [hevents, Expression.solve_of_ofText_eq_error ht]
    simp only [traced?, Expression.traced, ht, Option.map_some]
  · rw [hevents, Expression.solve_of_ofText ht, he]
    simp only [traced?, Expression.traced, ht, he, Option.map_some, Except.bind]
  · rw [hevents, Expression.solve_of_ofText ht, he]
    simp only [traced?, Expression.traced, ht, he, hv, Option.map_some, Except.bind]
  · rw [hevents, Expression.solve_of_ofText ht, he]
    simp only [traced?, Expression.traced, ht, he, hv, Option.map_some, Except.bind,
      List.cons_append, List.nil_append]

theorem run_general_of_ok {x : Double} (h : Expression.solve t = .ok x) (n : Nat) :
    (general t).run n = ⟨0, answerLine x ++ "\n".toList, logLines n (Expression.events t)⟩ := by
  have htraced := traced?_general t
  rw [h] at htraced
  exact run_of_ok htraced n

theorem run_general_of_error {e : Error} (h : Expression.solve t = .error e) (n : Nat) :
    (general t).run n =
      ⟨1, [], logLines n (Expression.events t) ++ [errorLine e.message]⟩ := by
  have htraced := traced?_general t
  rw [h] at htraced
  exact run_of_error htraced n

/-- From three flags on, the log has the lines of all events. -/
theorem log_run_general {n : Nat} (hn : 3 ≤ n) :
    ((general t).run n).log = (Expression.events t).map Event.line := by
  rw [log_run (traced?_general t), logLines_of_three_le hn]

/-- The exit code is 0 exactly if there is a value. -/
theorem code_run_general_iff (n : Nat) :
    ((general t).run n).code = 0 ↔ ∃ x, Expression.solve t = .ok x := by
  cases h : Expression.solve t with
  | ok x =>
      rw [run_general_of_ok h]
      exact iff_of_true rfl ⟨x, rfl⟩
  | error e =>
      rw [run_general_of_error h]
      exact iff_of_false Nat.one_ne_zero fun ⟨_, hx⟩ => nomatch hx

/-- **A run that fails prints nothing and ends its standard error with the line of its error.** -/
theorem run_general_failed {n : Nat} (h : ((general t).run n).code ≠ 0) :
    ((general t).run n).code = 1 ∧ ((general t).run n).stdout = [] ∧
      ∃ e, Expression.solve t = .error e ∧ (errorLine e.message).IsLine ∧
        ((general t).run n).stderr = ((general t).run n).log ++ [errorLine e.message] := by
  cases hsolve : Expression.solve t with
  | ok x => exact absurd ((code_run_general_iff n).2 ⟨x, hsolve⟩) h
  | error e =>
      have hrun := run_general_of_error hsolve n
      have hstderr : ((general t).run n).stderr =
          ((general t).run n).log ++ [errorLine e.message] := by
        rw [log_run (traced?_general t), hrun]
      have hmem : errorLine e.message ∈ ((general t).run n).stderr := by
        rw [hstderr]
        exact List.mem_concat_self
      exact ⟨congrArg Outcome.code hrun, congrArg Outcome.stdout hrun, e, rfl,
        isLine_stderr _ _ _ hmem, hstderr⟩

end Command

/-- **The log of an expression is the trace of its stages, and leaves the answer as it is.**

    - Exit code, standard output and error are the same at every verbosity.
    - From three flags on, the lines are a prefix of those of the four stages (`stageLines`): one
      for the tokens, one for the elements, which are the tokens without the brackets of the text,
      and two with the value that the standard output shows.
    - A stage has its line exactly if it and the stages before it succeed, so all lines are there
      exactly if the exit code is 0.
    - A smaller verbosity keeps the lines whose level it admits: nothing without a flag, the last
      line with one, the last two with two.
    - The standard error is the log, and where the run fails, the one line of the error after it;
      then the standard output is empty. -/
theorem run_general_log (t : Text) :
    let run := (Command.general t).run
    let log := (run 3).log
    (∀ n, (run n).code = (run 0).code ∧ (run n).stdout = (run 0).stdout ∧
      (run n).error? = (run 0).error?) ∧
    (∃ tokens elements value,
      log <+: Expression.stageLines t tokens elements value ∧
      (∀ ts, Token.ofText t = .ok ts → tokens = ts.length ∧
        ∀ es, Postfix.ofTokens ts = .ok es → elements = es.length) ∧
      elements + (t.count '(' + t.count ')') = tokens ∧
      ((run 0).code = 0 → (run 0).stdout = "Result = ".toList ++ value ++ "\n".toList)) ∧
    (0 < log.length ↔ ∃ ts, Token.ofText t = .ok ts) ∧
    (1 < log.length ↔ ∃ ts es, Token.ofText t = .ok ts ∧ Postfix.ofTokens ts = .ok es) ∧
    (2 < log.length ↔ ∃ x, Expression.solve t = .ok x) ∧
    (log.length = 4 ↔ (run 0).code = 0) ∧
    (∀ n, (run n).log = log.filter fun line => (Level.ofLine? line).any (Level.admits n)) ∧
    (run 0).log = [] ∧ (run 1).log = log.drop 3 ∧ (run 2).log = log.drop 2 ∧
    (∀ n, 3 ≤ n → (run n).log = log) ∧
    (∀ n, (run n).code = 0 → (run n).stderr = (run n).log) ∧
    ∀ n, (run n).code ≠ 0 → (run n).code = 1 ∧ (run n).stdout = [] ∧
      ∃ e, Expression.solve t = .error e ∧ Text.IsLine ("Error: ".toList ++ e.message) ∧
        (run n).stderr = (run n).log ++ ["Error: ".toList ++ e.message] := by
  intro run log
  have hlog : ∀ n, (run n).log = logLines n (Expression.events t) :=
    Command.log_run (Command.traced?_general t)
  have hfull : ∀ n, 3 ≤ n → (run n).log = (Expression.events t).map Event.line := fun _ =>
    Command.log_run_general
  have hlines : log = (Expression.events t).map Event.line := hfull 3 (Nat.le_refl 3)
  have hlength : log.length = (Expression.events t).length := by
    rw [hlines, List.length_map]
  have hcode : (run 0).code = 0 ↔ ∃ x, Expression.solve t = .ok x := Command.code_run_general_iff 0
  obtain ⟨htokenized, hconverted, hevaluated, hcompleted⟩ := Expression.length_events t
  obtain ⟨hzero, hone, htwo⟩ := Expression.logLines_events t
  obtain ⟨tokens, elements, value, hprefix, htokens, hcount, hvalue⟩ :=
    Expression.exists_stageLines t
  rw [← hlength] at htokenized hconverted hevaluated hcompleted
  rw [← hlines] at hone htwo hprefix
  refine ⟨fun n => ?_, ⟨tokens, elements, value, hprefix, htokens, hcount, fun h => ?_⟩, htokenized,
    hconverted, hevaluated, hcompleted.trans hcode.symm, fun n => ?_, (hlog 0).trans hzero,
    (hlog 1).trans hone, (hlog 2).trans htwo, fun n hn => (hfull n hn).trans hlines.symm,
    fun n h => (if_pos h).symm, fun n => Command.run_general_failed⟩
  · have hanswer : (run n).answer = (run 0).answer := Command.answer_run_congr rfl rfl n 0
    exact ⟨congrArg Prod.fst hanswer, congrArg (·.2.1) hanswer, congrArg (·.2.2) hanswer⟩
  · obtain ⟨x, hx⟩ := hcode.1 h
    rw [hvalue x hx]
    exact congrArg Outcome.stdout (Command.run_general_of_ok hx 0)
  · rw [hlog, logLines_eq_filter, hlines]

/-- All four stages of a product report, and two of a division by zero; the brackets of both are
    counted among the tokens only. -/
theorem run_general_log_product_and_zero :
    let product := (Command.general "2*(3+4)".toList).run
    let zero := (Command.general "1/(2-2)".toList).run
    let tokens := "TRACE calculatrice_infixe::noyau::jetons: tokenisation terminée jetons=7".toList
    let elements :=
      "TRACE calculatrice_infixe::noyau::rpn: conversion postfixée terminée elements=5".toList
    let debug := ("DEBUG calculatrice_infixe::noyau::eval: expression évaluée " ++
      "expression=\"2*(3+4)\" valeur=14.0").toList
    let info := ("INFO calculatrice_infixe::console: calcul terminé " ++
      "commande=General \x7b expression: \"2*(3+4)\" \x7d valeur=14.0").toList
    ((product 3).log = [tokens, elements, debug, info] ∧ (product 2).log = [debug, info] ∧
      (product 1).log = [info] ∧ (product 0).log = [] ∧
      ∀ n, (product n).code = 0 ∧ (product n).stdout = "Result = 14.0\n".toList) ∧
    (zero 3).log = [tokens, elements] ∧ (zero 2).log = [] ∧ (zero 1).log = [] ∧
      (zero 0).log = [] ∧
      ∀ n, (zero n).code = 1 ∧ (zero n).stdout = [] ∧
        (zero n).stderr = (zero n).log ++ ["Error: division par zéro".toList] := by
  intro product zero tokens elements debug info
  have hstages : Expression.stageLines "2*(3+4)".toList 7 5 "14.0".toList =
      [tokens, elements, debug, info] := by
    have htokens : digits 7 = "7".toList := by decide +kernel
    have helements : digits 5 = "5".toList := by decide +kernel
    have hquoted : Text.quoted "2*(3+4)".toList = "\"2*(3+4)\"".toList := by decide +kernel
    simp only [Expression.stageLines, htokens, helements, hquoted, ← String.toList_append]
    rfl
  have hcounts : [Event.tokenized 7, .converted 5].map Event.line = [tokens, elements] := by
    simp only [List.map_cons, List.map_nil, Event.line_tokenized, Event.line_converted]
    exact congrArg (List.take 2) hstages
  have hproduct : (product 3).log = [tokens, elements, debug, info] := by
    have hevents : Expression.events "2*(3+4)".toList = [.tokenized 7, .converted 5,
        .evaluated "2*(3+4)".toList (.nearest 14),
        .completed (.general "2*(3+4)".toList) (.nearest 14)] := by
      decide +kernel
    have hvalue : (Number.nearest 14 : Double).resultText = "14.0".toList := by decide +kernel
    rw [← hstages, ← hvalue, ← Expression.map_line_eq_stageLines, ← hevents]
    exact Command.log_run_general (Nat.le_refl 3)
  have hzero : (zero 3).log = [tokens, elements] := by
    have hevents : Expression.events "1/(2-2)".toList = [.tokenized 7, .converted 5] := by
      decide +kernel
    rw [← hcounts, ← hevents]
    exact Command.log_run_general (Nat.le_refl 3)
  have hanswer : (product 0).code = 0 ∧ (product 0).stdout = "Result = 14.0\n".toList := by
    decide +kernel
  have hfault : zero 0 = ⟨1, [], ["Error: division par zéro".toList]⟩ := by decide +kernel
  refine ⟨?_, ?_⟩
  · obtain ⟨hsame, -, -, -, -, -, -, hnone, hinfo, hdebug, -⟩ :=
      run_general_log "2*(3+4)".toList
    refine ⟨hproduct, hdebug.trans (congrArg (List.drop 2) hproduct),
      hinfo.trans (congrArg (List.drop 3) hproduct), hnone, fun n => ?_⟩
    exact ⟨(hsame n).1.trans hanswer.1, (hsame n).2.1.trans hanswer.2⟩
  · obtain ⟨hsame, -, -, -, -, -, -, hnone, hinfo, hdebug, -, -, hfailed⟩ :=
      run_general_log "1/(2-2)".toList
    refine ⟨hzero, hdebug.trans (congrArg (List.drop 2) hzero),
      hinfo.trans (congrArg (List.drop 3) hzero), hnone, fun n => ?_⟩
    -- without a flag the error is all that is said, and it is the same at every verbosity
    obtain ⟨-, -, e, he, -, hstderr₀⟩ :=
      hfailed 0 (by rw [congrArg Outcome.code hfault]; exact Nat.one_ne_zero)
    rw [hnone] at hstderr₀
    have hline : "Error: division par zéro".toList = "Error: ".toList ++ e.message :=
      List.singleton_inj.1 ((congrArg Outcome.stderr hfault).symm.trans hstderr₀)
    have hcode : (zero n).code = 1 := (hsame n).1.trans (congrArg Outcome.code hfault)
    obtain ⟨-, hstdout, e', he', -, hstderr⟩ := hfailed n (by rw [hcode]; exact Nat.one_ne_zero)
    obtain rfl : e = e' := Except.error.inj (he.symm.trans he')
    exact ⟨hcode, hstdout, hline ▸ hstderr⟩

end Calculator

import Calculator.Console.Trace

/-!
# Answers and logs of runs

A run ends with the value of its command, whatever is reported on the way: its answer is told by the
value alone, at every verbosity (`answer_run_of_ok`, `answer_run_of_error`), and its log by the
events alone (`log_run`).
-/

namespace Calculator

namespace Command

variable {c : Command}

theorem exists_traced? {r : Except Error Double} (h : c.value? = some r) :
    ∃ events, c.traced? = some (events, r) := by
  rw [← traced?_snd, Option.map_eq_some_iff] at h
  obtain ⟨⟨events, r⟩, htraced, rfl⟩ := h
  exact ⟨events, htraced⟩

theorem run_of_ok {events : List Event} {x : Double} (h : c.traced? = some (events, .ok x))
    (n : Nat) : c.run n = ⟨0, answerLine x ++ "\n".toList, logLines n events⟩ := by
  rw [run, h]

theorem run_of_error {events : List Event} {e : Error} (h : c.traced? = some (events, .error e))
    (n : Nat) : c.run n = ⟨1, [], logLines n events ++ [errorLine e.message]⟩ := by
  rw [run, h]

/-- **A value is printed, and nothing else is said.** -/
theorem answer_run_of_ok {x : Double} (h : c.value? = some (.ok x)) (n : Nat) :
    (c.run n).answer = (0, answerLine x ++ "\n".toList, none) := by
  obtain ⟨events, htraced⟩ := exists_traced? h
  rw [run_of_ok htraced]
  rfl

/-- **An error is the last line of the standard error, and nothing is printed.** -/
theorem answer_run_of_error {e : Error} (h : c.value? = some (.error e)) (n : Nat) :
    (c.run n).answer = (1, [], some (errorLine e.message)) := by
  obtain ⟨events, htraced⟩ := exists_traced? h
  have hlast : (logLines n events ++ [errorLine e.message]).getLast? = some (errorLine e.message) :=
    List.getLast?_concat
  rw [run_of_error htraced]
  simp only [Outcome.answer, Outcome.error?, hlast]
  rfl

/-- Commands of one value have one answer. -/
theorem answer_run_congr {c' : Command} {r : Except Error Double} (h : c.value? = some r)
    (h' : c'.value? = some r) (n m : Nat) : (c.run n).answer = (c'.run m).answer := by
  cases r with
  | ok x => rw [answer_run_of_ok h, answer_run_of_ok h']
  | error e => rw [answer_run_of_error h, answer_run_of_error h']

/-- **The log holds the events that the verbosity admits.** -/
theorem log_run {events : List Event} {r : Except Error Double}
    (h : c.traced? = some (events, r)) (n : Nat) : (c.run n).log = logLines n events := by
  cases r with
  | ok x =>
      rw [run_of_ok h]
      rfl
  | error e =>
      rw [run_of_error h]
      exact List.dropLast_concat

end Command

theorem Level.admits_of_three_le {n : Nat} (h : 3 ≤ n) (level : Level) :
    admits n level = true := by
  have hrank : level.rank ≤ 4 := by cases level <;> decide
  simp only [admits, rank_ofVerbosity, decide_eq_true_eq]
  omega

/-- From the verbosity 3 on everything is logged. -/
theorem logLines_of_three_le {n : Nat} (h : 3 ≤ n) (events : List Event) :
    logLines n events = events.map Event.line := by
  have hall : (events.filter fun e => Level.admits n e.level) = events :=
    List.filter_eq_self.2 fun e _ => Level.admits_of_three_le h e.level
  rw [logLines, hall]

end Calculator

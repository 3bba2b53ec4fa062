import Calculator.Console.Log

/-!
# What a command leaves behind

Carrying out a command leaves an exit code, the text of the standard output and the lines of the
standard error: the log that the verbosity admits, and at the end the error, if there is one.
`Command.traced?` is the value together with the events on the way to it; the value does not depend
on them (`traced?_snd`).
-/

namespace Calculator

namespace Expression

/-- The value of a text and the events on the way to it: one for each stage that succeeds. -/
def traced (t : Text) : List Event × Except Error Double :=
  match Token.ofText t with
  | .error e => ([], .error e)
  | .ok tokens =>
      match Postfix.ofTokens tokens with
      | .error e => ([.tokenized tokens.length], .error e)
      | .ok elements =>
          match elements.value with
          | .error e =>
              ([.tokenized tokens.length, .converted elements.length], .error e)
          | .ok x =>
              ([.tokenized tokens.length, .converted elements.length, .evaluated t x], .ok x)

/-- **The traced value is the value.** -/
theorem traced_snd (t : Text) : (traced t).2 = solve t := by
  unfold traced solve
  cases Token.ofText t with
  | error e => rfl
  | ok tokens =>
      cases h : Postfix.ofTokens tokens with
      | error e => simp [bind, Except.bind, h]
      | ok elements => cases h' : elements.value <;> simp [bind, Except.bind, h, h']

end Expression

namespace Command

/-- The value of a calculation and all events on the way to it. -/
def traced? (c : Command) : Option (List Event × Except Error Double) :=
  let stages : Option (List Event × Except Error Double) := match c with
    | .binary x op y => some ([], Operator.calculate x op y)
    | .general t => some (Expression.traced t)
    | .window => none
  stages.map fun (events, value) =>
    match value with
    | .ok x => (events ++ [.completed c x], .ok x)
    | .error e => (events, .error e)

/-- The traced value is the value. -/
theorem traced?_snd (c : Command) : c.traced?.map Prod.snd = c.value? := by
  cases c with
  | binary x op y => cases h : Operator.calculate x op y <;> simp [traced?, value?, h]
  | general t =>
      have ht := Expression.traced_snd t
      cases h : Expression.solve t <;> simp [traced?, value?, ht, h]
  | window => rfl

end Command

/-- What a run of the program leaves behind. -/
structure Outcome where
  code : Nat
  stdout : Text
  /-- The lines of the standard error. -/
  stderr : List Text
  deriving DecidableEq

/-- The line that an error ends a run with. -/
def errorLine (message : Text) : Text :=
  "Error: ".toList ++ message

/-- The outcome of a command at a verbosity; without a display the window cannot be opened. -/
def Command.run (c : Command) (verbosity : Nat) : Outcome :=
  match c.traced? with
  | none => ⟨1, [], logLines verbosity [.windowFailed] ++ [errorLine []]⟩
  | some (events, .ok x) => ⟨0, answerLine x ++ "\n".toList, logLines verbosity events⟩
  | some (events, .error e) => ⟨1, [], logLines verbosity events ++ [errorLine e.message]⟩

end Calculator

import Calculator.Console.Outcome

/-!
# Traces of expressions

What a run says is its answer (`Outcome.answer`) and its log (`Outcome.log`). An expression goes
through four stages, each of which works on what the stage before leaves (`Expression.stages`); what
there is to report is what the stages report until one of them fails (`Expression.events`).
`Expression.stageLines` is the log of an expression that goes through all stages, as it is read on
the standard error, and `Level.ofLine?` reads the level off a line.
-/

namespace Calculator

namespace Outcome

/-- The error that a run ends with. -/
def error? (o : Outcome) : Option Text :=
  if o.code = 0 then none else o.stderr.getLast?

/-- The exit code, the standard output and the error: what a run says apart from its log. -/
def answer (o : Outcome) : Nat × Text × Option Text :=
  (o.code, o.stdout, o.error?)

/-- The lines of the standard error before the error. -/
def log (o : Outcome) : List Text :=
  if o.code = 0 then o.stderr else o.stderr.dropLast

end Outcome

/-- The level whose name a line starts with. -/
def Level.ofLine? (line : Text) : Option Level :=
  [error, warn, info, debug, trace].find? fun level => (level.name ++ " ".toList).isPrefixOf line

namespace Expression

/-- The lines of the four stages of a text, in order: one for the tokens and one for the elements
    that were counted, and two with the text of the value. -/
def stageLines (t : Text) (tokens elements : Nat) (value : Text) : List Text :=
  ["TRACE calculatrice_infixe::noyau::jetons: tokenisation terminée jetons=".toList ++
      digits tokens,
    "TRACE calculatrice_infixe::noyau::rpn: conversion postfixée terminée elements=".toList ++
      digits elements,
    "DEBUG calculatrice_infixe::noyau::eval: expression évaluée expression=".toList ++ t.quoted ++
      " valeur=".toList ++ value,
    "INFO calculatrice_infixe::console: calcul terminé commande=General \x7b expression: ".toList ++
      t.quoted ++ " \x7d".toList ++ " valeur=".toList ++ value]

/-- What the four stages report of a text; a stage that fails, or that finds nothing to work on,
    reports nothing. -/
def stages (t : Text) : List (Option Event) :=
  let tokens := (Token.ofText t).toOption
  let elements := tokens.bind fun tokens => (Postfix.ofTokens tokens).toOption
  let value := elements.bind fun elements => elements.value.toOption
  [tokens.map fun tokens => .tokenized tokens.length,
    elements.map fun elements => .converted elements.length,
    value.map (.evaluated t), value.map (.completed (.general t))]

/-- What is reported of a text until a stage fails. -/
def events (t : Text) : List Event :=
  ((stages t).takeWhile Option.isSome).filterMap id

end Expression

end Calculator

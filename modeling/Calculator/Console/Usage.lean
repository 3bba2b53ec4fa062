import Calculator.Console.Arguments

/-!
# What is said of a command line

The texts that the console shows in place of an answer: the usage and the version, which are asked
for, and one line for each other problem of a command line. Their wording is free: a command line
has its problem and its exit code (`UsageProblem.code`) whatever is said of it, so nothing is stated
about these texts.
-/

namespace Calculator

/-- The lines that show how the program is called. -/
def usageLines : List Text :=
  ["Calculatrice pour console.".toList, [],
    "Usage: calculatrice_infixe [-v]... <commande>".toList, [],
    "  binary <nombre> <opérateur> <nombre>  Opération binaire de base".toList,
    "  general <expression>                  Expression infixe standard".toList,
    "  gui                                   Interface graphique".toList]

/-- The line that names the program's version. -/
def versionLine : Text :=
  "calculatrice_infixe 0.1.0".toList

namespace UsageProblem

/-- What was asked for in place of a command. -/
def requested? : UsageProblem → Option (List Text)
  | .helpAsked => some usageLines
  | .versionAsked => some [versionLine]
  | _ => none

/-- The lines that report a problem. -/
def report : UsageProblem → List Text
  | .nothingAsked => usageLines
  | .missingSubcommand => ["error: commande manquante".toList]
  | .unknownSubcommand => ["error: commande inconnue".toList]
  | .unknownArgument => ["error: argument inattendu".toList]
  | .unneededValue => ["error: option sans valeur".toList]
  | .unreadableValue => ["error: valeur invalide".toList]
  | .missingValue => ["error: valeur manquante".toList]
  | .helpAsked => []
  | .versionAsked => []

/-- The outcome of a command line that asks for no command. -/
def outcomeLines (p : UsageProblem) : List Text × List Text :=
  match p.requested? with
  | some lines => (lines, [])
  | none => ([], p.report)

end UsageProblem

end Calculator

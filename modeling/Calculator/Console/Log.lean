import Calculator.Console.Command

/-!
# The log

An event is one thing the program reports on the way to an answer; each has a level and a line. A
verbosity admits the events up to a level (`Level.ofVerbosity`), so more verbosity never takes an
event away (`admits_mono`).
-/

namespace Calculator

/-! ## 1. Levels -/

/-- How much an event matters, the most important first. -/
inductive Level where
  | error
  | warn
  | info
  | debug
  | trace
  deriving DecidableEq

namespace Level

/-- The place of a level, counted from the most important. -/
def rank : Level → Nat
  | .error => 0
  | .warn => 1
  | .info => 2
  | .debug => 3
  | .trace => 4

/-- The name of a level at the head of a line. -/
def name : Level → Text
  | .error => "ERROR".toList
  | .warn => "WARN".toList
  | .info => "INFO".toList
  | .debug => "DEBUG".toList
  | .trace => "TRACE".toList

/-- The least important level that a verbosity admits. -/
def ofVerbosity : Nat → Level
  | 0 => .warn
  | 1 => .info
  | 2 => .debug
  | _ => .trace

/-- Each step of verbosity admits one level more, from the warnings up to all. -/
theorem rank_ofVerbosity : ∀ n, (ofVerbosity n).rank = min (n + 1) 4
  | 0 => rfl
  | 1 => rfl
  | 2 => rfl
  | n + 3 => by
      show 4 = _
      omega

/-- The verbosity admits events of the level. -/
def admits (verbosity : Nat) (level : Level) : Bool :=
  level.rank ≤ (ofVerbosity verbosity).rank

/-- **More verbosity admits no less.** -/
theorem admits_mono {n m : Nat} {level : Level} (h : n ≤ m) (hn : admits n level = true) :
    admits m level = true := by
  simp only [admits, rank_ofVerbosity, decide_eq_true_eq] at *
  omega

end Level

/-! ## 2. Events -/

/-- What the program reports. -/
inductive Event where
  | tokenized (count : Nat)
  | converted (count : Nat)
  | evaluated (expression : Text) (value : Double)
  | completed (command : Command) (value : Double)
  /-- No window could be opened. -/
  | windowFailed
  deriving DecidableEq

namespace Event

/-- The level of an event. -/
def level : Event → Level
  | .tokenized _ => .trace
  | .converted _ => .trace
  | .evaluated _ _ => .debug
  | .completed _ _ => .info
  | .windowFailed => .error

/-- The part of the program that reports an event. -/
def target : Event → Text
  | .tokenized _ => "calculatrice_infixe::noyau::jetons".toList
  | .converted _ => "calculatrice_infixe::noyau::rpn".toList
  | .evaluated _ _ => "calculatrice_infixe::noyau::eval".toList
  | .completed _ _ => "calculatrice_infixe::console".toList
  | .windowFailed => "calculatrice".toList

/-- What an event says. -/
def message : Event → Text
  | .tokenized n => "tokenisation terminée jetons=".toList ++ digits n
  | .converted n => "conversion postfixée terminée elements=".toList ++ digits n
  | .evaluated t x =>
      "expression évaluée expression=".toList ++ t.quoted ++ " valeur=".toList ++ x.resultText
  | .completed c x =>
      "calcul terminé commande=".toList ++ c.description ++ " valeur=".toList ++ x.resultText
  | .windowFailed => "échec de l’interface graphique e=".toList

/-- The line of an event. -/
def line (e : Event) : Text :=
  e.level.name ++ " ".toList ++ e.target ++ ": ".toList ++ e.message

end Event

/-- The lines of the events that a verbosity admits, in order. -/
def logLines (verbosity : Nat) (events : List Event) : List Text :=
  (events.filter fun e => Level.admits verbosity e.level).map Event.line

end Calculator

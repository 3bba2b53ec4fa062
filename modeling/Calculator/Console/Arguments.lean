import Calculator.Console.Command

/-!
# The command line

`Arguments.read` reads the words of a command line from left to right: flags, a subcommand, then
its values with flags among them; the first problem ends it. Four rules decide what a word is:

* after the word `--` every word is a value;
* `binary` takes a word with a minus sign as a value only if a plain number follows the sign;
* `general` takes any word as its expression that is not made of known flags alone;
* a value is checked when the next value or flag has been recognised, or at the end, so an unknown
  word behind it is reported first.

The verbosity is the number of `-v` flags: of those behind the subcommand, if there are any.
-/

namespace Calculator

/-- Why a command line asks for no command. -/
inductive UsageProblem where
  | nothingAsked
  | missingSubcommand
  | unknownSubcommand
  | unknownArgument
  | unneededValue
  | unreadableValue
  | missingValue
  | helpAsked
  | versionAsked
  deriving DecidableEq

/-- The exit code: asking for help or for the version is no fault. -/
def UsageProblem.code : UsageProblem → Nat
  | .helpAsked => 0
  | .versionAsked => 0
  | _ => 2

/-- A command with its verbosity. -/
structure Arguments where
  verbosity : Nat
  command : Command
  deriving DecidableEq

/-! ## 1. Flags -/

/-- A word that is no value. -/
inductive Flag where
  | verbose
  | help
  | version
  deriving DecidableEq

namespace Flag

/-- The letter of a flag. -/
def letter : Flag → Char
  | .verbose => 'v'
  | .help => 'h'
  | .version => 'V'

/-- The word of a flag. -/
def word : Flag → Text
  | .verbose => "verbose".toList
  | .help => "help".toList
  | .version => "version".toList

/-- The flags before a subcommand. -/
def ofProgram : List Flag :=
  [.verbose, .help, .version]

/-- The flags behind a subcommand. -/
def ofSubcommands : List Flag :=
  [.verbose, .help]

/-- The flag with a letter. -/
def ofLetter? (known : List Flag) (c : Char) : Option Flag :=
  known.find? fun flag => flag.letter = c

/-- The flag with a word, the value that may be attached to it aside. -/
def ofWord? (known : List Flag) (t : Text) : Option Flag :=
  known.find? fun flag => flag.word = t.takeWhile (· ≠ '=')

/-- The flag that a word behind two minus signs is; no flag takes a value. -/
def readWord (known : List Flag) (t : Text) : Except UsageProblem Flag :=
  match ofWord? known t with
  | some flag => if '=' ∈ t then .error .unneededValue else .ok flag
  | none => .error .unknownArgument

/-- The count of verbose flags after a flag; `none` stands for no such flag. -/
def apply (count : Option Nat) : Flag → Except UsageProblem (Option Nat)
  | .verbose => .ok (some (min (count.getD 0 + 1) 255))
  | .help => .error .helpAsked
  | .version => .error .versionAsked

/-- The count after the letters behind one minus sign. -/
def applyLetters (known : List Flag) (count : Option Nat) :
    List Char → Except UsageProblem (Option Nat)
  | [] => .ok count
  | c :: cs =>
      match ofLetter? known c with
      | some flag => do applyLetters known (← flag.apply count) cs
      | none => .error .unknownArgument

end Flag

/-! ## 2. Values -/

/-- A plain number has a digit first, at most one point, and digits behind an exponent letter. -/
def isPlainNumber (t : Text) : Bool :=
  let behindWhole := t.dropWhile Char.isDigit
  let behindFraction := match behindWhole with
    | '.' :: r => r.dropWhile Char.isDigit
    | r => r
  (t.head?.any Char.isDigit) &&
    match behindFraction with
    | [] => true
    | c :: ds => (c = 'e' || c = 'E') && !ds.isEmpty && ds.all Char.isDigit

/-- The checked values of `binary`. -/
inductive Operands where
  | nothing
  | first (x : Double)
  | firstOperator (x : Double) (op : Operator)
  | all (x : Double) (op : Operator) (y : Double)
  deriving DecidableEq

namespace Operands

/-- A number as a value. -/
def readNumber (t : Text) : Except UsageProblem Double :=
  match Number.ofText? t with
  | some x => .ok x
  | none => .error .unreadableValue

/-- An operator as a value. -/
def readOperator (t : Text) : Except UsageProblem Operator :=
  match Operator.ofText t with
  | .ok op => .ok op
  | .error _ => .error .unreadableValue

/-- The values with the next one. -/
def add (t : Text) : Operands → Except UsageProblem Operands
  | .nothing => (readNumber t).map .first
  | .first x => (readOperator t).map (.firstOperator x)
  | .firstOperator x op => (readNumber t).map (.all x op)
  | .all _ _ _ => .error .unknownArgument

end Operands

/-- What has been read of a subcommand and its values. -/
inductive Form where
  /-- The last value of `binary` is unchecked for a while. -/
  | binary (operands : Operands) (unchecked : Option Text)
  | general (expression : Option Text)
  | window
  deriving DecidableEq

namespace Form

/-- The subcommand with a name, without values. -/
def ofName? (t : Text) : Option Form :=
  if t = "binary".toList then some (.binary .nothing none)
  else if t = "general".toList then some (.general none)
  else if t = "gui".toList then some .window
  else none

/-- The form with all values checked. -/
def check : Form → Except UsageProblem Form
  | .binary operands (some t) => (operands.add t).map fun operands => .binary operands none
  | form => .ok form

/-- The form takes no further value. -/
def isFull : Form → Bool
  | .binary (.all _ _ _) _ => true
  | .binary (.firstOperator _ _) (some _) => true
  | .binary _ _ => false
  | .general expression => expression.isSome
  | .window => true

/-- The form with a further value. -/
def take (form : Form) (t : Text) : Except UsageProblem Form :=
  if form.isFull then .error .unknownArgument
  else form.check.map fun
    | .binary operands _ => .binary operands (some t)
    | .general _ => .general (some t)
    | .window => .window

/-- A word with a minus sign in front is a value nonetheless. -/
def takesSigned : Form → Text → Bool
  | .binary _ _, '-' :: t => isPlainNumber t
  | .general none, '-' :: '-' :: t => (Flag.ofWord? Flag.ofSubcommands t).isNone
  | .general none, '-' :: t => t.any fun c => (Flag.ofLetter? Flag.ofSubcommands c).isNone
  | _, _ => false

/-- The command of a form that is complete. -/
def command (form : Form) : Except UsageProblem Command := do
  match ← form.check with
  | .binary (.all x op y) _ => .ok (.binary x op y)
  | .general (some t) => .ok (.general t)
  | .window => .ok .window
  | _ => .error .missingValue

end Form

/-! ## 3. The whole line -/

namespace Arguments

/-- The form and the verbose flags behind a subcommand; `onlyValues` once the word `--` has come. -/
def readForm (onlyValues : Bool) (form : Form) (count : Option Nat) :
    List Text → Except UsageProblem (Form × Option Nat)
  | [] => .ok (form, count)
  | word :: rest =>
      if onlyValues then do readForm true (← form.take word) count rest
      else if word = "--".toList then readForm true form count rest
      else if form.takesSigned word then do readForm false (← form.take word) count rest
      else
        match word with
        | '-' :: '-' :: t => do
            let flag ← Flag.readWord Flag.ofSubcommands t
            let form ← form.check
            readForm false form (← flag.apply count) rest
        | '-' :: c :: cs =>
            match Flag.ofLetter? Flag.ofSubcommands c with
            | none => .error .unknownArgument
            | some _ => do
                let form ← form.check
                readForm false form (← Flag.applyLetters Flag.ofSubcommands count (c :: cs)) rest
        | _ => do readForm false (← form.take word) count rest

/-- What a line lacks that has no subcommand. -/
def missing (count : Option Nat) : UsageProblem :=
  if count.isNone then .nothingAsked else .missingSubcommand

/-- The word is a subcommand, `help` being one. -/
def isSubcommand (t : Text) : Bool :=
  t = "help".toList || (Form.ofName? t).isSome

/-- What comes of the subcommand `help` with the words behind it. -/
def helpOutcome : List Text → UsageProblem
  | [] => .helpAsked
  | [t] => if isSubcommand t then .helpAsked else .unknownSubcommand
  | _ => .unknownSubcommand

/-- The words behind `--` where no subcommand has come. -/
def strayOutcome (count : Option Nat) : List Text → UsageProblem
  | [] => missing count
  | t :: _ => if isSubcommand t then .unknownArgument else .unknownSubcommand

/-- The arguments of the words, with the verbose flags before them. -/
def readFrom (count : Option Nat) : List Text → Except UsageProblem Arguments
  | [] => .error (missing count)
  | word :: rest =>
      match Form.ofName? word with
      | some form => do
          let (form, ownCount) ← readForm false form none rest
          let command ← form.command
          return ⟨(ownCount.or count).getD 0, command⟩
      | none =>
          match word with
          | ['-', '-'] => .error (strayOutcome count rest)
          | '-' :: '-' :: t => do
              let flag ← Flag.readWord Flag.ofProgram t
              readFrom (← flag.apply count) rest
          | '-' :: c :: cs => do
              readFrom (← Flag.applyLetters Flag.ofProgram count (c :: cs)) rest
          | _ => .error (if word = "help".toList then helpOutcome rest else .unknownSubcommand)

/-- The arguments of a command line, the program's name left out. -/
def read (words : List Text) : Except UsageProblem Arguments :=
  readFrom none words

end Arguments

end Calculator

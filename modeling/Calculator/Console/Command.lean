import Calculator.Expression
import Calculator.Text.Quoted

/-!
# Commands of the console

A command is one operation, an expression, or the wish for the window. `Command.answer?` is the
line that a calculation prints or the error that it ends with; the window is no calculation and has
no answer.
-/

namespace Calculator

/-- What the console is asked to do. -/
inductive Command where
  | binary (first : Double) (op : Operator) (second : Double)
  | general (expression : Text)
  | window
  deriving DecidableEq

namespace Command

/-- The value of a calculation. -/
def value? : Command → Option (Except Error Double)
  | .binary x op y => some (Operator.calculate x op y)
  | .general t => some (Expression.solve t)
  | .window => none

/-- The line that shows a value. -/
def answerLine (x : Double) : Text :=
  "Result = ".toList ++ x.resultText

/-- The line that a calculation prints. -/
def answer? (c : Command) : Option (Except Error Text) :=
  c.value?.map (·.map answerLine)

end Command

/-- The name of an operator in words. -/
def Operator.name : Operator → Text
  | .addition => "Addition".toList
  | .subtraction => "Subtraction".toList
  | .multiplication => "Multiplication".toList
  | .division => "Division".toList

/-- A command with its operands, for the log. -/
def Command.description : Command → Text
  | .binary x op y =>
      "Binary \x7b first_number: ".toList ++ x.resultText ++ ", operator: ".toList ++ op.name ++
        ", second_number: ".toList ++ y.resultText ++ " \x7d".toList
  | .general t => "General \x7b expression: ".toList ++ t.quoted ++ " \x7d".toList
  | .window => "Gui".toList

end Calculator

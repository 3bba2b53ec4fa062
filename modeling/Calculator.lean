import Calculator.Console.Arguments
import Calculator.Console.Command
import Calculator.Console.Log
import Calculator.Console.Outcome
import Calculator.Console.Trace
import Calculator.Console.Usage
import Calculator.Decimal
import Calculator.Decimal.Digits
import Calculator.Decimal.Numeral
import Calculator.Error
import Calculator.Expression
import Calculator.Expression.Grammar
import Calculator.Expression.Listing
import Calculator.Expression.Tree
import Calculator.Expression.Written
import Calculator.Main
import Calculator.Number
import Calculator.Number.Arithmetic
import Calculator.Number.Decimal
import Calculator.Number.Interchange
import Calculator.Number.Magnitude
import Calculator.Number.Rounding
import Calculator.Operator
import Calculator.Postfix
import Calculator.Postfix.Arrangement
import Calculator.Postfix.Contents
import Calculator.Postfix.Conversion
import Calculator.Postfix.Faults
import Calculator.Postfix.Operands
import Calculator.Proofs.Console.Agreement
import Calculator.Proofs.Console.Arguments
import Calculator.Proofs.Console.Lines
import Calculator.Proofs.Console.Log
import Calculator.Proofs.Console.Operands
import Calculator.Proofs.Console.Verbatim
import Calculator.Proofs.Decimal.Numeral
import Calculator.Proofs.Decimal.Value
import Calculator.Proofs.Expression.Acceptance
import Calculator.Proofs.Expression.Brackets
import Calculator.Proofs.Expression.Division
import Calculator.Proofs.Expression.Grammar
import Calculator.Proofs.Expression.Listing
import Calculator.Proofs.Expression.Matching
import Calculator.Proofs.Expression.Minus
import Calculator.Proofs.Expression.Result
import Calculator.Proofs.Expression.RoundTrip
import Calculator.Proofs.Expression.Written
import Calculator.Proofs.Number.Decimal
import Calculator.Proofs.Number.Distance
import Calculator.Proofs.Number.Division
import Calculator.Proofs.Number.Rounding
import Calculator.Proofs.Postfix.Arrangement
import Calculator.Proofs.Postfix.Conservation
import Calculator.Proofs.Postfix.Faults
import Calculator.Proofs.Postfix.Frame
import Calculator.Proofs.Postfix.Stack
import Calculator.Proofs.Postfix.Value
import Calculator.Proofs.Postfix.Verdict
import Calculator.Proofs.Postfix.Waiting
import Calculator.Proofs.Token.Cut
import Calculator.Proofs.Token.Literal
import Calculator.Proofs.Token.Points
import Calculator.Proofs.Token.Reach
import Calculator.Proofs.Token.Scan
import Calculator.Proofs.Window.Coherence
import Calculator.Proofs.Window.Deletion
import Calculator.Proofs.Window.Entry
import Calculator.Proofs.Window.History
import Calculator.Proofs.Window.Independence
import Calculator.Proofs.Window.Keypad
import Calculator.Text
import Calculator.Text.Brackets
import Calculator.Text.Distinct
import Calculator.Text.Quoted
import Calculator.Text.Words
import Calculator.Token
import Calculator.Token.Cut
import Calculator.Token.Literal
import Calculator.Token.Reach
import Calculator.Token.Scan
import Calculator.Window
import Calculator.Window.Calls
import Calculator.Window.ExpressionPanel
import Calculator.Window.Keypad
import Calculator.Window.OperationPanel
import Calculator.Window.Panels
import Calculator.Window.Session

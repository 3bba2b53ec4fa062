import Calculator.Number.Decimal
import Calculator.Operator
import Calculator.Text.Words

/-!
# The postfix form

In the postfix form an operator stands after its two operands, so no bracket is needed.
`Postfix.value` computes it with a stack of values: a number is put on top, an operator takes the
two values on top and leaves its result. The form has a value if exactly one is left in the end
(`run_append`: what comes first leaves its stack to what follows). `Postfix.listing` shows the
form, one word for each element.
-/

namespace Calculator

/-- A part of a postfix form. -/
inductive Element where
  | number (value : Double)
  | operator (op : Operator)
  deriving DecidableEq

namespace Element

/-- The word that an element is shown as. -/
def text : Element → Text
  | .number x => x.listingText
  | .operator op => [op.symbol]

end Element

/-- The elements of a postfix form in order. -/
abbrev Postfix := List Element

namespace Postfix

/-- The elements as words of a line. -/
def listing (es : Postfix) : Text :=
  Text.unwords (es.map Element.text)

/-- What the elements make of a stack of values, whose top comes first. -/
def run : List Double → Postfix → Except Error (List Double)
  | stack, [] => .ok stack
  | stack, .number x :: es => run (x :: stack) es
  | second :: first :: stack, .operator op :: es =>
      match op.apply first second with
      | .ok x => run (x :: stack) es
      | .error e => .error e
  | _, .operator _ :: _ => .error .invalidExpression

/-- The value that a stack in the end stands for. -/
def result : List Double → Except Error Double
  | [x] => .ok x
  | _ => .error .invalidExpression

/-- The value of a postfix form. -/
def value (es : Postfix) : Except Error Double :=
  (run [] es).bind result

theorem value_eq_ok_iff {es : Postfix} {x : Double} : es.value = .ok x ↔ run [] es = .ok [x] := by
  rw [value]
  constructor
  · intro h
    obtain ⟨stack, hr, hx⟩ := bind_eq_ok_iff.1 h
    rcases stack with _ | ⟨y, _ | ⟨z, stack⟩⟩
    · simp [result] at hx
    · obtain rfl : y = x := Except.ok.inj hx
      exact hr
    · simp [result] at hx
  · intro h
    rw [h]
    rfl

/-- **What comes first leaves its stack to what follows.** -/
theorem run_append (stack : List Double) (es es' : Postfix) :
    run stack (es ++ es') = (run stack es).bind fun stack' => run stack' es' := by
  fun_induction run stack es with
  | case1 => rfl
  | case2 stack x es ih => exact ih
  | case3 second first stack op es x h ih => simpa [run, h] using ih
  | case4 second first stack op es e h => simp [run, h, Except.bind]
  | case5 stack op es h =>
      rw [List.cons_append, run.eq_4 _ _ _ h]
      rfl

end Postfix

end Calculator

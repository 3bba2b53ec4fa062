import Calculator.Number.Arithmetic

/-!
# The four operators

An operator has a symbol, a precedence and an operation on two numbers. This file fixes

* `Operator.ofSymbol?` and `Operator.ofText` -- an operator is read from its symbol, and from a
  text that holds nothing else but blanks at its ends;
* `Operator.apply` -- the operation, the left number first;
* `Operator.calculate` -- the operation on its own, which refuses a zero divisor before it looks at
  the first number.
-/

namespace Calculator

/-- An operator between two operands. -/
inductive Operator where
  | addition
  | subtraction
  | multiplication
  | division
  deriving DecidableEq

namespace Operator

/-- The operators in the order in which they are offered. -/
def all : List Operator :=
  [.addition, .subtraction, .multiplication, .division]

theorem mem_all (op : Operator) : op ∈ all := by
  cases op <;> decide

/-- The character that an operator is written with. -/
def symbol : Operator → Char
  | .addition => '+'
  | .subtraction => '-'
  | .multiplication => '*'
  | .division => '/'

/-- The operator that a character is. -/
def ofSymbol? : Char → Option Operator
  | '+' => some .addition
  | '-' => some .subtraction
  | '*' => some .multiplication
  | '/' => some .division
  | _ => none

/-- **A character is an operator exactly if it is that operator's symbol.** -/
theorem ofSymbol?_eq_some_iff {c : Char} {op : Operator} :
    ofSymbol? c = some op ↔ c = op.symbol := by
  constructor
  · intro h
    unfold ofSymbol? at h
    split at h <;> simp_all [symbol] <;> subst h <;> rfl
  · rintro rfl
    cases op <;> rfl

/-- How closely an operator holds its operands. -/
def precedence : Operator → Nat
  | .addition => 1
  | .subtraction => 1
  | .multiplication => 2
  | .division => 2

/-- The operator that a text is, blanks at its ends aside. -/
def ofText (t : Text) : Except Error Operator :=
  let trimmed := t.trim
  let found := match trimmed with
    | [c] => ofSymbol? c
    | _ => none
  match found with
  | some op => .ok op
  | none => .error (.invalidOperator trimmed)

/-- A symbol reads as its operator. -/
theorem ofText_symbol (op : Operator) : ofText [op.symbol] = .ok op := by
  cases op <;> rfl

variable {f : BinaryFormat}

/-- The operation on a left and a right number. -/
def apply : Operator → Number f → Number f → Except Error (Number f)
  | .addition, x, y => .ok (x.add y)
  | .subtraction, x, y => .ok (x.subtract y)
  | .multiplication, x, y => .ok (x.multiply y)
  | .division, x, y => x.divide y

/-- **A division by a zero is all that an operation can be at fault with.** -/
theorem apply_eq_error_iff {op : Operator} {x y : Number f} {e : Error} :
    op.apply x y = .error e ↔ op = .division ∧ y.isZero = true ∧ e = .divisionByZero := by
  cases op with
  | addition => simp [apply]
  | subtraction => simp [apply]
  | multiplication => simp [apply]
  | division => simp [apply, Number.divide_eq_error_iff]

theorem apply_eq_error {op : Operator} {x y : Number f} {e : Error}
    (h : op.apply x y = .error e) : e = .divisionByZero :=
  (apply_eq_error_iff.1 h).2.2

/-- One operation on two numbers; a zero divisor is refused. -/
def calculate (x : Number f) (op : Operator) (y : Number f) : Except Error (Number f) :=
  if op = .division ∧ y.isZero then .error .divisionByZero else op.apply x y

/-- **The early refusal is the operation's own.** -/
theorem calculate_eq_apply (x : Number f) (op : Operator) (y : Number f) :
    calculate x op y = op.apply x y := by
  unfold calculate
  split
  · next h =>
      obtain ⟨rfl, hy⟩ := h
      exact (Number.divide_eq_error_iff.2 ⟨hy, rfl⟩).symm
  · rfl

end Operator

end Calculator

import Calculator.Token.Literal

/-!
# How far a literal reaches

Characters can also stand in a row and be looked at by their places. `literalEnd?` finds where the
literal that `literal?` cuts off ends in the row: it goes from digit to digit, looks once ahead at a
point, and goes on from digit to digit behind it. A look at a place that the row does not have is an
error (`OutOfRange`), so a scan with an answer has looked at places of the row only. `IsLiteralAt`
says without a scan that a literal stands between two places.
-/

namespace Calculator

/-- A look at a place where no character stands. -/
structure OutOfRange where
  place : Nat
  deriving DecidableEq

/-- The character at a place. -/
def look (row : Array Char) (place : Nat) : Except OutOfRange Char :=
  match row[place]? with
  | some c => .ok c
  | none => .error ⟨place⟩

/-- The first place from `place` on at which no digit stands. -/
def digitsEnd (row : Array Char) (place : Nat) : Except OutOfRange Nat :=
  if place < row.size then do
    let c ← look row place
    if c.isDigit then digitsEnd row (place + 1) else return place
  else return place
termination_by row.size - place

/-- A point stands at the place, and a digit behind it. -/
def startsFraction (row : Array Char) (place : Nat) : Except OutOfRange Bool :=
  if place + 1 < row.size then do
    let c ← look row place
    if c = '.' then
      let d ← look row (place + 1)
      return d.isDigit
    else return false
  else return false

/-- The place behind the literal that starts at `start`, if one starts there. -/
def literalEnd? (row : Array Char) (start : Nat) : Except OutOfRange (Option Nat) := do
  let place ← digitsEnd row start
  if place = start then return none
  if ← startsFraction row place then
    let stop ← digitsEnd row (place + 1)
    return some stop
  return some place

/-- A literal stands from `start` up to the place before `stop`. -/
structure IsLiteralAt (row : Array Char) (start stop : Nat) : Prop where
  stop_le : stop ≤ row.size
  isLiteral : IsLiteral (row.extract start stop).toList

end Calculator

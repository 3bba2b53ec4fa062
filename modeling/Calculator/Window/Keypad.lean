import Calculator.Operator

/-!
# The keypad

Each key puts its symbol at the end of the entry and keeps the entry readable: an operator stands
between two spaces, an opening bracket keeps clear of the operand before it, a closing bracket
joins what it closes, digits and points are put down as they are. `Entry.delete` takes the last
symbol back with the spaces around it. Only the space U+0020 is taken away; the look back for an
operand skips every blank.
-/

namespace Calculator

/-- A key that writes into the entry. -/
inductive Key where
  | digit (d : Fin 10)
  | point
  | leftBracket
  | rightBracket
  | operator (op : Operator)
  deriving DecidableEq

namespace Key

/-- The symbol that a key writes and is labelled with. -/
def symbol : Key → Char
  | .digit d => Char.ofNat ('0'.toNat + d)
  | .point => '.'
  | .leftBracket => '('
  | .rightBracket => ')'
  | .operator op => op.symbol

/-- All keys, row by row. -/
def all : List Key :=
  [.leftBracket, .rightBracket] ++ Operator.all.map .operator ++
    [7, 8, 9, 4, 5, 6, 1, 2, 3, 0].map .digit ++ [.point]

/-- The key of a symbol. -/
def ofSymbol? (c : Char) : Option Key :=
  all.find? fun key => key.symbol = c

end Key

namespace Entry

/-- The entry without the spaces at its end. -/
def dropSpaces (t : Text) : Text :=
  t.dropTrailing (· = ' ')

/-- The last character that is not blank may end an operand. -/
def endsOperand (t : Text) : Bool :=
  (t.reverse.find? fun c => !isBlank c).any fun c => c.isDigit || c = ')'

/-- The entry after a key. -/
def insert (t : Text) : Key → Text
  | .digit d => t ++ [(Key.digit d).symbol]
  | .point => t ++ ['.']
  | .leftBracket => (if endsOperand t then t ++ [' '] else t) ++ ['(']
  | .rightBracket => dropSpaces t ++ [')']
  | .operator op =>
      let kept := dropSpaces t
      (if kept.isEmpty then [] else kept ++ [' ']) ++ [op.symbol, ' ']

/-- The entry without its last symbol. -/
def delete (t : Text) : Text :=
  dropSpaces (dropSpaces t).dropLast

end Entry

end Calculator

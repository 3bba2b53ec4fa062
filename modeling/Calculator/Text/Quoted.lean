import Calculator.Text

/-!
# Quoted texts

`Text.quoted` puts a text between double quotes so that it stays on one line (`Text.IsLine`): the
tab, the line feed, the carriage return, the double quote and the backslash have escapes of their
own, any other control character and any blank but the space is given by its code point in
hexadecimal.
-/

namespace Calculator

namespace Text

/-- The escape by code point. -/
def codePointEscape (c : Char) : Text :=
  "\\u\x7b".toList ++ Nat.toDigits 16 c.toNat ++ "\x7d".toList

/-- A character as it stands between the quotes. -/
def escaped (c : Char) : Text :=
  if c = '\t' then "\\t".toList
  else if c = '\n' then "\\n".toList
  else if c = '\r' then "\\r".toList
  else if c.toNat = 0 then "\\0".toList
  else if c.toNat = 0x22 then "\\\"".toList
  else if c.toNat = 0x5C then "\\\\".toList
  else if c = ' ' then [c]
  else if isBlank c || c.toNat < 0x20 || (0x7F ≤ c.toNat && c.toNat < 0xA0) then codePointEscape c
  else [c]

/-- The text between double quotes. -/
def quoted (t : Text) : Text :=
  "\"".toList ++ t.flatMap escaped ++ "\"".toList

/-- The text stays on one line. -/
def IsLine (t : Text) : Prop :=
  '\n' ∉ t

instance (t : Text) : Decidable (IsLine t) :=
  inferInstanceAs (Decidable (_ ∉ t))

end Text

end Calculator

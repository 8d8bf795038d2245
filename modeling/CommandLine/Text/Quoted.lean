import CommandLine.Text.Printable
import CommandLine.Json.Write

/-!
# Quoted texts

How messages show a text: between single quotes, or between double quotes if it holds a single
quote and no double quote. A backslash stands before the quote that surrounds the text and before
a backslash. Tab, newline and carriage return have short escapes; other unprintable characters
are shown by their code, in the least of two, four and eight hexadecimal digits that holds it.
-/

namespace CommandLine

/-- The last hexadecimal digits of a number, as many as asked for. -/
def hexDigits : Nat → Nat → Text
  | 0, _ => []
  | width + 1, n => hexDigits width (n / 16) ++ [Json.hexDigit (n % 16)]

namespace Text

/-- The quote that surrounds a text. -/
def quoteMark (t : Text) : Char := if t.contains '\'' && !t.contains '"' then '"' else '\''

/-- A character as it stands between two given quotes. -/
def showChar (mark : Char) (c : Char) : Text :=
  if c = mark ∨ c = '\\' then ['\\', c]
  else if c = '\t' then ['\\', 't']
  else if c = '\n' then ['\\', 'n']
  else if c = '\r' then ['\\', 'r']
  else if isPrintable c then [c]
  else if c.toNat < 0x100 then ['\\', 'x'] ++ hexDigits 2 c.toNat
  else if c.toNat < 0x10000 then ['\\', 'u'] ++ hexDigits 4 c.toNat
  else ['\\', 'U'] ++ hexDigits 8 c.toNat

/-- A text between quotes. -/
def quoted (t : Text) : Text :=
  let mark := quoteMark t
  mark :: t.flatMap (showChar mark) ++ [mark]

end Text

end CommandLine

import CommandLine.Text

/-!
# Decimal numerals

Natural numbers and integers as texts, and digits as numbers.
-/

namespace CommandLine

/-- Whether a character is one of the ten decimal digits. -/
def isDigit (c : Char) : Bool := '0' ≤ c && c ≤ '9'

/-- The number a decimal digit stands for. -/
def digitValue (c : Char) : Nat := c.toNat - '0'.toNat

namespace Text

/-- The decimal numeral of a natural number. -/
def ofNat (n : Nat) : Text := Nat.toDigits 10 n

/-- The decimal numeral of an integer, with a minus sign below zero. -/
def ofInt (n : Int) : Text := if n < 0 then '-' :: ofNat n.natAbs else ofNat n.natAbs

/-- The number that some decimal digits stand for. -/
def digitsValue (ds : Text) : Nat := ds.foldl (fun n d => 10 * n + digitValue d) 0

end Text

end CommandLine

import CommandLine.Text.Blank
import CommandLine.Text.Decimal

/-!
# Numerals in settings

An integer as it may be written in a setting: decimal digits with an optional sign, single
underscores between digits, and an optional fraction of zeros. White space may surround it. Zeros
in front of the number do not count, and neither do underscores among them; instead of a sign in
front of these zeros, a minus sign may follow them.

* `stripZeros?` — a numeral from its first digit that counts on.
* `ofPlain` — the number of a numeral that nothing has to be left out of, unless it is too long.
* `read` — the number of a numeral.
-/

namespace CommandLine.Numeral

/-- Why a text stands for no number. -/
inductive NumeralError where
  /-- it is no numeral -/
  | malformed
  /-- it is too long -/
  | tooLong
  deriving DecidableEq

/-- How many characters a plain numeral may have, its sign included. -/
def maxLength : Nat := 4300

/-- Whether a character may stand in front of the digits that count. -/
def isFiller (c : Char) : Bool := c == '0' || c == '_'

/-- A numeral that starts with a digit, without the zeros in front of the number. If no number
follows them, the last character of the filling stays: a zero then stands for itself. -/
def stripZeros? (t : Text) : Option Text :=
  if t.head? = some '0' then
    let last := (t.takeWhile isFiller).getLast?.toList
    match t.dropWhile isFiller with
    | [] => some last
    | c :: rest =>
      if c = '.' then some (last ++ c :: rest)
      else if isDigit c || c == '-' then some (c :: rest)
      else none
  else if (t.head?.map isDigit).getD false then some t
  else none

/-- A numeral without a fraction of zeros. -/
def dropZeroFraction (t : Text) : Text :=
  let zeros := (t.dropWhile (· != '.')).drop 1
  if !zeros.isEmpty && zeros.all (· == '0') then t.takeWhile (· != '.') else t

/-- A text without its underscores, each of which stands between two other characters. The argument
says whether another character has just been read. -/
def dropUnderscores? : Bool → Text → Option Text
  | afterOther, [] => if afterOther then some [] else none
  | afterOther, c :: cs =>
    if c = '_' then
      if afterOther then dropUnderscores? false cs else none
    else (dropUnderscores? true cs).map (c :: ·)

/-- The plain form of a numeral without a sign in front. Underscores that stand elsewhere than
between two characters are kept, and are no part of a number then. -/
def plain? (t : Text) : Option Text :=
  (stripZeros? t).map fun t =>
    let whole := dropZeroFraction t
    (dropUnderscores? false whole).getD whole

/-- The number of a plain numeral: digits after an optional minus sign. It starts with a zero only
if there is no other digit. A numeral is too long before it is anything else. -/
def ofPlain (t : Text) : Except NumeralError Int :=
  let negative := t.head? == some '-'
  let whole := if negative then t.drop 1 else t
  let ds := whole.takeWhile isDigit
  if maxLength < (if negative then 1 else 0) + ds.length then .error .tooLong
  else if ds.isEmpty || ds.length != whole.length || (ds.head? == some '0' && ds.length != 1) then
    .error .malformed
  else
    let n : Int := Text.digitsValue ds
    .ok (if negative then -n else n)

/-- The number that a numeral stands for. -/
def read (t : Text) : Except NumeralError Int :=
  let t := t.trim
  let negative := t.head? == some '-'
  match plain? (if negative || t.head? == some '+' then t.drop 1 else t) with
  | some digits => ofPlain (if negative then '-' :: digits else digits)
  | none => .error .malformed

end CommandLine.Numeral

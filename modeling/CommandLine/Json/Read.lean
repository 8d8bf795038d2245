import CommandLine.Json
import CommandLine.Text.Decimal

/-!
# Reading JSON

A reader of JSON texts. Characters beyond the first plane may be written as two escapes that
together name one character, a surrogate pair; the reader joins them.

* `Json.readString` — the text of a string literal, up to its closing quote.
* `Json.readNumber` — a number, exact if it is written without fraction and exponent. Infinite values
  and the value that is no number are written as words.
* `Json.read?` — the value of a whole text.

The readers of values take a bound on their nesting. `Json.read?` gives them one that no text
exceeds, since every value and every element takes at least one character.
-/

namespace CommandLine

namespace Json

/-- The characters that may stand between the parts of a JSON text. -/
def isGap (c : Char) : Bool := c == ' ' || c == '\t' || c == '\n' || c == '\r'

/-- The characters after those that may stand between the parts. -/
def skipGap (cs : Text) : Text := cs.dropWhile isGap

/-- The number a hexadecimal digit stands for. -/
def hexValue? (c : Char) : Option Nat :=
  if '0' ≤ c ∧ c ≤ '9' then some (c.toNat - '0'.toNat)
  else if 'a' ≤ c ∧ c ≤ 'f' then some (c.toNat - 'a'.toNat + 10)
  else if 'A' ≤ c ∧ c ≤ 'F' then some (c.toNat - 'A'.toNat + 10)
  else none

/-- The number that four hexadecimal digits stand for. -/
def hexValue4? (a b c d : Char) : Option Nat := do
  let a ← hexValue? a
  let b ← hexValue? b
  let c ← hexValue? c
  let d ← hexValue? d
  pure (((a * 16 + b) * 16 + c) * 16 + d)

/-- The character that a short escape stands for. -/
def shortEscape? : Char → Option Char
  | '"' => some '"'
  | '\\' => some '\\'
  | '/' => some '/'
  | 'b' => some '\x08'
  | 'f' => some '\x0c'
  | 'n' => some '\n'
  | 'r' => some '\r'
  | 't' => some '\t'
  | _ => none

/-- The code points of a string literal up to its closing quote, escapes resolved one by one, and
what follows the quote. Control characters do not stand in a string unescaped. -/
def readCodes : Text → Option (List Nat × Text)
  | [] => none
  | '"' :: rest => some ([], rest)
  | '\\' :: 'u' :: a :: b :: c :: d :: rest => do
    let n ← hexValue4? a b c d
    let (codes, rest) ← readCodes rest
    pure (n :: codes, rest)
  | '\\' :: c :: rest => do
    let e ← shortEscape? c
    let (codes, rest) ← readCodes rest
    pure (e.toNat :: codes, rest)
  | c :: rest =>
    if c < ' ' then none
    else do
      let (codes, rest) ← readCodes rest
      pure (c.toNat :: codes, rest)

/-- Whether a code is the first half of a surrogate pair. -/
def isHighSurrogate (n : Nat) : Bool := 0xD800 ≤ n && n ≤ 0xDBFF

/-- Whether a code is the second half of a surrogate pair. -/
def isLowSurrogate (n : Nat) : Bool := 0xDC00 ≤ n && n ≤ 0xDFFF

/-- The characters of some codes: the two halves of a surrogate pair are one character. -/
def joinSurrogates : List Nat → Text
  | [] => []
  | [n] => [Char.ofNat n]
  | hi :: lo :: rest =>
    if isHighSurrogate hi && isLowSurrogate lo then
      Char.ofNat (0x10000 + (hi - 0xD800) * 0x400 + (lo - 0xDC00)) :: joinSurrogates rest
    else Char.ofNat hi :: joinSurrogates (lo :: rest)

/-- The text of a string literal after its opening quote, and what follows its closing quote. -/
def readString (cs : Text) : Option (Text × Text) :=
  (readCodes cs).map fun (codes, rest) => (joinSurrogates codes, rest)

/-- The digits at the front, and what follows them. -/
def readDigits (cs : Text) : Text × Text := cs.span isDigit

/-- The digits after a point at the front, and what follows them. A point is followed by at least
one digit. -/
def readFraction : Text → Option (Text × Text)
  | '.' :: cs =>
    match readDigits cs with
    | ([], _) => none
    | r => some r
  | cs => some ([], cs)

/-- The exponent at the front, if there is one, and what follows it. -/
def readExponent : Text → Option (Option Int × Text)
  | c :: cs =>
    if c = 'e' ∨ c = 'E' then
      let (negative, cs) : Bool × Text :=
        match cs with
        | '-' :: r => (true, r)
        | '+' :: r => (false, r)
        | r => (false, r)
      match readDigits cs with
      | ([], _) => none
      | (ds, rest) =>
        let n : Int := Text.digitsValue ds
        some (some (if negative then -n else n), rest)
    else some (none, c :: cs)
  | [] => some (none, [])

/-- The number at the front after its sign, and what follows it. A number does not start with a
zero that another digit follows. -/
def readUnsigned (negative : Bool) (cs : Text) : Option (Json × Text) := do
  let (whole, cs) := readDigits cs
  if whole.isEmpty ∨ (whole.head? = some '0' ∧ 1 < whole.length) then none
  let (fraction, cs') ← readFraction cs
  let (exponent, rest) ← readExponent cs'
  if fraction.isEmpty ∧ exponent.isNone then
    let n : Int := Text.digitsValue whole
    pure (int (if negative then -n else n), rest)
  else
    let digits := Text.digitsValue (whole ++ fraction)
    pure (float (Double.ofScientific negative digits (exponent.getD 0 - fraction.length)), rest)

/-- The number at the front, and what follows it. The values that are no decimals are written as
words. -/
def readNumber : Text → Option (Json × Text)
  | 'N' :: 'a' :: 'N' :: rest => some (float .nan, rest)
  | 'I' :: 'n' :: 'f' :: 'i' :: 'n' :: 'i' :: 't' :: 'y' :: rest =>
    some (float (.infinite false), rest)
  | '-' :: 'I' :: 'n' :: 'f' :: 'i' :: 'n' :: 'i' :: 't' :: 'y' :: rest =>
    some (float (.infinite true), rest)
  | '-' :: cs => readUnsigned true cs
  | cs => readUnsigned false cs

mutual

/-- The value at the front, and what follows it. -/
def readValue : Nat → Text → Option (Json × Text)
  | 0, _ => none
  | bound + 1, cs =>
    match skipGap cs with
    | 'n' :: 'u' :: 'l' :: 'l' :: rest => some (null, rest)
    | 't' :: 'r' :: 'u' :: 'e' :: rest => some (bool true, rest)
    | 'f' :: 'a' :: 'l' :: 's' :: 'e' :: rest => some (bool false, rest)
    | '"' :: rest => (readString rest).map fun (t, rest) => (str t, rest)
    | '[' :: rest =>
      match skipGap rest with
      | ']' :: rest => some (arr [], rest)
      | rest => (readItems bound rest).map fun (items, rest) => (arr items, rest)
    | '\x7b' :: rest =>
      match skipGap rest with
      | '\x7d' :: rest => some (obj [], rest)
      | rest => (readFields bound rest).map fun (fields, rest) => (obj fields, rest)
    | cs => readNumber cs

/-- The items of a list up to its closing bracket, at least one, and what follows it. -/
def readItems : Nat → Text → Option (List Json × Text)
  | 0, _ => none
  | bound + 1, cs => do
    let (v, rest) ← readValue bound cs
    match skipGap rest with
    | ',' :: rest =>
      let (vs, rest) ← readItems bound rest
      pure (v :: vs, rest)
    | ']' :: rest => pure ([v], rest)
    | _ => none

/-- The fields of an object up to its closing brace, at least one, and what follows it. -/
def readFields : Nat → Text → Option (List (Text × Json) × Text)
  | 0, _ => none
  | bound + 1, cs =>
    match skipGap cs with
    | '"' :: rest => do
      let (key, rest) ← readString rest
      match skipGap rest with
      | ':' :: rest =>
        let (v, rest) ← readValue bound rest
        match skipGap rest with
        | ',' :: rest =>
          let (vs, rest) ← readFields bound rest
          pure ((key, v) :: vs, rest)
        | '\x7d' :: rest => pure ([(key, v)], rest)
        | _ => none
      | _ => none
    | _ => none

end

/-- The value of a whole JSON text; none if the text is not one. -/
def read? (cs : Text) : Option Json :=
  match readValue (2 * cs.length + 1) cs with
  | some (v, rest) => if (skipGap rest).isEmpty then some v else none
  | none => none

end Json

end CommandLine

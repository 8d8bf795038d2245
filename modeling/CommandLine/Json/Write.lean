import CommandLine.Json
import CommandLine.Double.Shortest

/-!
# Writing JSON

JSON texts of ASCII characters only. Without an indent a value is written on one line, with a
blank after every comma and colon. With an indent every item and every field stands on a line of
its own, that many blanks further in for each level; an indent of zero or below gives the line
breaks alone. Lists and objects without elements are never broken.

* `Json.escape` — a character as it stands in a string literal.
* `Json.writeAt` — a value in front of the text that follows it, so that nothing is written twice.
* `Json.write` — a value as a text.
-/

namespace CommandLine

namespace Json

/-- The hexadecimal digit of a number below sixteen. -/
def hexDigit (n : Nat) : Char := if n < 10 then Char.ofNat (48 + n) else Char.ofNat (87 + n)

/-- The escape of a code of sixteen bits. -/
def escapeCode (n : Nat) : Text :=
  ['\\', 'u', hexDigit (n / 4096 % 16), hexDigit (n / 256 % 16), hexDigit (n / 16 % 16),
    hexDigit (n % 16)]

/-- A character as it stands in a string literal: printable ASCII as it is, the others by a short
escape, by their code, or beyond the first plane by the codes of their two surrogates. -/
def escape (c : Char) : Text :=
  if c = '"' then ['\\', '"']
  else if c = '\\' then ['\\', '\\']
  else if c = '\n' then ['\\', 'n']
  else if c = '\r' then ['\\', 'r']
  else if c = '\t' then ['\\', 't']
  else if c = '\x08' then ['\\', 'b']
  else if c = '\x0c' then ['\\', 'f']
  else if ' ' ≤ c ∧ c ≤ '~' then [c]
  else if c.toNat < 0x10000 then escapeCode c.toNat
  else
    let n := c.toNat - 0x10000
    escapeCode (0xD800 + n / 0x400) ++ escapeCode (0xDC00 + n % 0x400)

/-- A text as a string literal in front of what follows it. -/
def writeString (t : Text) (rest : Text) : Text :=
  '"' :: t.foldr (fun c after => escape c ++ after) ('"' :: rest)

/-- A floating-point value: the shortest decimal that reads back, and a word where there is no
decimal. -/
def writeFloat : Double → Text
  | .nan => "NaN".toList
  | .infinite negative => (if negative then ['-'] else []) ++ "Infinity".toList
  | x => x.toText

/-- What stands before an element at a level: with an indent, a new line and the blanks of the
level; without one, nothing. -/
def lineBreak (indent : Option Int) (level : Nat) : Text :=
  match indent with
  | none => []
  | some n => '\n' :: List.replicate (n.toNat * level) ' '

/-- What stands between two elements. -/
def comma (indent : Option Int) (level : Nat) : Text :=
  match indent with
  | none => [',', ' ']
  | some _ => ',' :: lineBreak indent level

mutual

/-- A value at a level of nesting, in front of what follows it. -/
def writeAt (indent : Option Int) (level : Nat) : Json → Text → Text
  | null, rest => "null".toList ++ rest
  | bool b, rest => (if b then "true".toList else "false".toList) ++ rest
  | int n, rest => Text.ofInt n ++ rest
  | float x, rest => writeFloat x ++ rest
  | str t, rest => writeString t rest
  | arr [], rest => '[' :: ']' :: rest
  | arr (v :: vs), rest =>
    '[' :: lineBreak indent (level + 1)
      ++ writeAt indent (level + 1) v
        (writeItems indent (level + 1) vs (lineBreak indent level ++ ']' :: rest))
  | obj [], rest => '\x7b' :: '\x7d' :: rest
  | obj ((k, v) :: fields), rest =>
    '\x7b' :: lineBreak indent (level + 1)
      ++ writeString k (':' :: ' ' :: writeAt indent (level + 1) v
        (writeFields indent (level + 1) fields (lineBreak indent level ++ '\x7d' :: rest)))

/-- The items of a list after the first, in front of what follows them. -/
def writeItems (indent : Option Int) (level : Nat) : List Json → Text → Text
  | [], rest => rest
  | v :: vs, rest =>
    comma indent level ++ writeAt indent level v (writeItems indent level vs rest)

/-- The fields of an object after the first, in front of what follows them. -/
def writeFields (indent : Option Int) (level : Nat) : List (Text × Json) → Text → Text
  | [], rest => rest
  | (k, v) :: fields, rest =>
    comma indent level
      ++ writeString k (':' :: ' ' :: writeAt indent level v (writeFields indent level fields rest))

end

/-- A value as a text. -/
def write (indent : Option Int) (v : Json) : Text := writeAt indent 0 v []

end Json

end CommandLine

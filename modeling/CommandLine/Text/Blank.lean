import CommandLine.Text

/-!
# Blank characters

Two sets of blank characters. `isWhiteSpace` is the White_Space property of Unicode, which numerals
may be surrounded by. `isBlank` adds the four information separators; a text of such characters
alone counts as no text at all, and they surround names and values in files of variables. Both are
wider than the whitespace that separates tokens.
-/

namespace CommandLine

/-- Whether a character has the White_Space property. -/
def isWhiteSpace (c : Char) : Bool :=
  let n := c.toNat
  (0x9 ≤ n && n ≤ 0xD) || n == 0x20 || n == 0x85 || n == 0xA0 || n == 0x1680
    || (0x2000 ≤ n && n ≤ 0x200A) || n == 0x2028 || n == 0x2029 || n == 0x202F || n == 0x205F
    || n == 0x3000

/-- Whether a character is blank: white space or an information separator. -/
def isBlank (c : Char) : Bool :=
  isWhiteSpace c || (0x1C ≤ c.toNat && c.toNat ≤ 0x1F)

namespace Text

/-- Whether a text holds blank characters only. -/
def isAllBlank (t : Text) : Bool := t.all isBlank

/-- A text without the characters at its ends that a test holds of. -/
def trimBy (p : Char → Bool) (t : Text) : Text := ((t.dropWhile p).reverse.dropWhile p).reverse

/-- A text without the white space at its ends. -/
def trim (t : Text) : Text := t.trimBy isWhiteSpace

/-- A text without the blank characters at its ends. -/
def strip (t : Text) : Text := t.trimBy isBlank

end Text

end CommandLine

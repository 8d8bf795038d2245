import CommandLine.Kind

/-!
# Operators and character classes

The characters that separate tokens, the characters that end an unquoted word, and the operator
spellings with the kind of each.

Spellings are listed so that none stands behind a shorter one it begins with: the first that
matches is the longest. The digit of the spellings that reroute the error stream is no operator
character, so these two count only where a token starts.
-/

namespace CommandLine

/-- Whitespace between tokens. No other blank character separates tokens. -/
def isSpace (c : Char) : Bool :=
  c == ' ' || c == '\t' || c == '\n' || c == '\r' || c == '\x0c' || c == '\x0b'

/-- The characters that end an unquoted word because an operator may start with them. -/
def isOperatorChar (c : Char) : Bool :=
  c == ';' || c == '&' || c == '|' || c == '<' || c == '>' || c == '(' || c == ')'

/-- The characters that end an unquoted word. -/
def endsWord (c : Char) : Bool := isSpace c || isOperatorChar c

namespace Operator

/-- Every operator spelling with its kind, longer spellings before those they begin with. -/
def spellings : List (Text × Kind) :=
  [(['2', '>', '>'], .redirect),
   (['&', '&'], .and),
   (['|', '|'], .or),
   (['>', '>'], .redirect),
   (['2', '>'], .redirect),
   (['>'], .redirect),
   (['<'], .redirect),
   ([';'], .sequence),
   (['&'], .background),
   (['|'], .pipe),
   (['('], .lparen),
   ([')'], .rparen)]

/-- The operator at the front of some characters, if they start with one. -/
def match? (cs : Text) : Option (Text × Kind) :=
  spellings.find? fun p => p.1.isPrefixOf cs

/-- A matched spelling is one of the list, and the characters start with it. -/
theorem mem_of_match? {cs : Text} {p : Text × Kind} (h : match? cs = some p) :
    p ∈ spellings ∧ p.1 <+: cs := by
  have hp := List.find?_some h
  exact ⟨List.mem_of_find?_eq_some h, by simpa using hp⟩

/-- No spelling is empty, and none is the spelling of a word or of the end of the line. -/
theorem spellings_proper : ∀ p ∈ spellings, 0 < p.1.length ∧ p.2 ≠ .word ∧ p.2 ≠ .eol := by
  decide

/-- Where no operator matches, the next character is no operator character. -/
theorem isOperatorChar_of_match?_eq_none {c : Char} {cs : Text} (h : match? (c :: cs) = none) :
    isOperatorChar c = false := by
  have alone : ∀ p ∈ spellings, p.1 ≠ [c] := by
    intro p hp hc
    exact List.find?_eq_none.mp h p hp (by simp [hc])
  simp only [spellings, List.mem_cons, List.not_mem_nil, or_false, forall_eq_or_imp,
    forall_eq, ne_eq, List.cons.injEq, and_true] at alone
  simp [isOperatorChar]
  grind

end Operator

end CommandLine

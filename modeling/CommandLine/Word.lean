import CommandLine.Operator

/-!
# Words

A word runs on through quotes and escapes up to whitespace, an operator character or the end of
the characters. Four readings of it, each one walk along the characters:

* `Word.extent` — how far the word at the front reaches;
* `Word.isQuoted` — whether a quote is opened in it;
* `Word.render` — the text it stands for, quotes stripped and escapes resolved;
* `Word.unclosed` — the quote or escape it leaves open at its end.

Single quotes keep everything up to the next one. In double quotes a backslash escapes the
characters of `escapable` and stands for itself before any other. Outside quotes a backslash
escapes every character; before a newline the two together stand for nothing.
-/

namespace CommandLine

/-- The characters that a backslash escapes inside double quotes. -/
def escapable (c : Char) : Bool :=
  c == '"' || c == '\\' || c == '$' || c == '\x60' || c == '\n'

namespace Word

mutual

/-- How many characters the word at the front takes. -/
def extent : Text → Nat
  | [] => 0
  | '\'' :: cs => extentSingle cs + 1
  | '"' :: cs => extentDouble cs + 1
  | ['\\'] => 1
  | '\\' :: _ :: cs => extent cs + 2
  | c :: cs => if endsWord c then 0 else extent cs + 1

/-- How many characters the word takes from inside single quotes on. -/
def extentSingle : Text → Nat
  | [] => 0
  | '\'' :: cs => extent cs + 1
  | _ :: cs => extentSingle cs + 1

/-- How many characters the word takes from inside double quotes on. -/
def extentDouble : Text → Nat
  | [] => 0
  | '"' :: cs => extent cs + 1
  | ['\\'] => 1
  | '\\' :: _ :: cs => extentDouble cs + 2
  | _ :: cs => extentDouble cs + 1

end

/-- Whether a quote is opened somewhere in the word. -/
def isQuoted : Text → Bool
  | [] => false
  | '\'' :: _ => true
  | '"' :: _ => true
  | ['\\'] => false
  | '\\' :: _ :: cs => isQuoted cs
  | _ :: cs => isQuoted cs

mutual

/-- The text a word stands for. A backslash that nothing follows stands for itself. -/
def render : Text → Text
  | [] => []
  | '\'' :: cs => renderSingle cs
  | '"' :: cs => renderDouble cs
  | ['\\'] => ['\\']
  | '\\' :: c :: cs => if c = '\n' then render cs else c :: render cs
  | c :: cs => c :: render cs

/-- The text of the rest of a word from inside single quotes on. -/
def renderSingle : Text → Text
  | [] => []
  | '\'' :: cs => render cs
  | c :: cs => c :: renderSingle cs

/-- The text of the rest of a word from inside double quotes on. -/
def renderDouble : Text → Text
  | [] => []
  | '"' :: cs => render cs
  | ['\\'] => ['\\']
  | '\\' :: c :: cs =>
    if c = '\n' then renderDouble cs
    else if escapable c then c :: renderDouble cs
    else '\\' :: c :: renderDouble cs
  | c :: cs => c :: renderDouble cs

end

end Word

/-- What a word may leave open at its end. -/
inductive Unclosed where
  /-- a single quote -/
  | single
  /-- a double quote -/
  | double
  /-- a backslash that escapes nothing -/
  | escape
  deriving DecidableEq

/-- The character that opened it. -/
def Unclosed.mark : Unclosed → Char
  | single => '\''
  | double => '"'
  | escape => '\\'

namespace Word

mutual

/-- The quote or backslash that a word leaves open, if any. -/
def unclosed : Text → Option Unclosed
  | [] => none
  | '\'' :: cs => unclosedSingle cs
  | '"' :: cs => unclosedDouble cs
  | ['\\'] => some .escape
  | '\\' :: _ :: cs => unclosed cs
  | _ :: cs => unclosed cs

/-- What is left open from inside single quotes on. -/
def unclosedSingle : Text → Option Unclosed
  | [] => some .single
  | '\'' :: cs => unclosed cs
  | _ :: cs => unclosedSingle cs

/-- What is left open from inside double quotes on. A backslash at the very end leaves the
quotes open, and it is these that count. -/
def unclosedDouble : Text → Option Unclosed
  | [] => some .double
  | '"' :: cs => unclosed cs
  | ['\\'] => some .double
  | '\\' :: _ :: cs => unclosedDouble cs
  | _ :: cs => unclosedDouble cs

end

/-- A word takes no more characters than there are, inside quotes or out. -/
theorem extent_le (cs : Text) :
    extent cs ≤ cs.length ∧ extentSingle cs ≤ cs.length ∧ extentDouble cs ≤ cs.length := by
  induction h : cs.length using Nat.strongRecOn generalizing cs with
  | ind n ih =>
    subst h
    refine ⟨?_, ?_, ?_⟩
    · unfold extent
      split <;> grind
    · unfold extentSingle
      split <;> grind
    · unfold extentDouble
      split <;> grind

/-- A word is at least one character long unless its first character ends it. -/
theorem extent_pos {c : Char} {cs : Text} (h : endsWord c = false) : 0 < extent (c :: cs) := by
  unfold extent
  split <;> simp_all

end Word

end CommandLine

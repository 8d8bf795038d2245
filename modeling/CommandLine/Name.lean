import CommandLine.Level
import CommandLine.Text.Quoted
import CommandLine.Token

/-!
# Reading names

Kinds, redirect operators and levels by the names under which they are written. A text that names
none of them is refused by what was expected.
-/

namespace CommandLine

/-- What a name was expected to name. -/
inductive NameSort where
  /-- a kind of tokens -/
  | kind
  /-- a redirect operator -/
  | redirectOp
  /-- a grammar level -/
  | level
  deriving DecidableEq

/-- A text that names nothing of its sort. -/
structure UnknownName where
  /-- the text -/
  value : Text
  /-- what it was expected to name -/
  sort : NameSort
  deriving DecidableEq

/-- How a sort of names is called. -/
def NameSort.title : NameSort → Text
  | kind => "TokenKind".toList
  | redirectOp => "RedirectOp".toList
  | level => "Level".toList

/-- What is said about a text that names nothing of its sort. -/
def UnknownName.message (e : UnknownName) : Text :=
  e.value.quoted ++ " is not a valid ".toList ++ e.sort.title

/-- A value that was looked up by a name. -/
def NameSort.found {α : Type} (sort : NameSort) (t : Text) : Option α → Except UnknownName α
  | some a => .ok a
  | none => .error ⟨t, sort⟩

/-- The kind that a text names. -/
def Kind.ofName (t : Text) : Except UnknownName Kind := NameSort.kind.found t (Kind.ofName? t)

/-- The redirect operator that a text spells. -/
def RedirectOp.ofSpelling (t : Text) : Except UnknownName RedirectOp :=
  NameSort.redirectOp.found t (RedirectOp.ofSpelling? t)

/-- The level that a text names. -/
def Level.ofName (t : Text) : Except UnknownName Level := NameSort.level.found t (Level.ofName? t)

/-- What is said about a span that cannot be read as a token. -/
def TokenError.message : TokenError → Text
  | pastEnd => "string index out of range".toList
  | notRedirect raw => UnknownName.message ⟨raw, .redirectOp⟩

end CommandLine

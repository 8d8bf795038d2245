import CommandLine.Text

/-!
# Redirect operators

Each operator reroutes one of the three standard streams to or from a file.
-/

namespace CommandLine

/-- A redirect operator. -/
inductive RedirectOp where
  /-- standard input comes from the target -/
  | read
  /-- standard output goes to the target -/
  | write
  /-- standard output is added at the end of the target -/
  | append
  /-- the error stream goes to the target -/
  | stderr
  /-- the error stream is added at the end of the target -/
  | stderrAppend
  deriving DecidableEq

namespace RedirectOp

/-- Every redirect operator. -/
def all : List RedirectOp := [read, write, append, stderr, stderrAppend]

/-- The characters an operator is written with. -/
def spelling : RedirectOp → Text
  | read => ['<']
  | write => ['>']
  | append => ['>', '>']
  | stderr => ['2', '>']
  | stderrAppend => ['2', '>', '>']

/-- The operator of a given spelling. -/
def ofSpelling? (t : Text) : Option RedirectOp := all.find? fun op => op.spelling == t

/-- The number of the stream an operator reroutes. -/
def stream : RedirectOp → Nat
  | read => 0
  | write | append => 1
  | stderr | stderrAppend => 2

/-- Whether the target keeps what it held before. -/
def appends : RedirectOp → Bool
  | append | stderrAppend => true
  | _ => false

/-- Spellings are read back. -/
theorem ofSpelling?_spelling (op : RedirectOp) : ofSpelling? op.spelling = some op := by
  cases op <;> rfl

end RedirectOp

end CommandLine

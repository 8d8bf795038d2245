import CommandLine.Kind

/-!
# Grammar levels

A line is divided into conditionals, a conditional into pipelines, a pipeline into commands. Each
level names the operators that separate its segments from one another.
-/

namespace CommandLine

/-- A grammar level. -/
inductive Level where
  /-- a whole line, or the body of a group -/
  | commandLine
  /-- pipelines joined by double ampersands and double bars -/
  | conditional
  /-- commands joined by single bars -/
  | pipeline
  /-- a command with its arguments and redirections, or a group -/
  | command
  deriving DecidableEq

namespace Level

/-- Every level, outermost first. -/
def all : List Level := [commandLine, conditional, pipeline, command]

/-- The name under which a level is written out. -/
def name : Level → Text
  | commandLine => "command_line".toList
  | conditional => "conditional".toList
  | pipeline => "pipeline".toList
  | command => "command".toList

/-- The level of a given name. -/
def ofName? (t : Text) : Option Level := all.find? fun l => l.name == t

/-- The operators that separate the segments of a level, in the order of their names. A line is
not separated from anything. -/
def delimiters : Level → List Kind
  | commandLine => []
  | conditional => [.background, .eol, .sequence]
  | pipeline => [.and, .or]
  | command => [.pipe]

/-- The levels inside a level, outermost first. -/
def below : Level → List Level
  | commandLine => [conditional, pipeline, command]
  | conditional => [pipeline, command]
  | pipeline => [command]
  | command => []

/-- The level of the parts of a segment. -/
def child? (l : Level) : Option Level := l.below.head?

/-- Names are read back. -/
theorem ofName?_name (l : Level) : ofName? l.name = some l := by
  cases l <;> rfl

end Level

end CommandLine

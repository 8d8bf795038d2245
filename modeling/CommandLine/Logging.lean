import CommandLine.Settings
import CommandLine.Text.Quoted

/-!
# Logging

Messages have a level. The application logs from the level of its settings on. The root logger is
set up only once: the first time a level is chosen it gets a handler and that level, and from then
on keeps both.

* `LogLevel.read` — the level of a name in any letter case.
* `LevelNameError` — why a name names no level: nothing has it, or something else does.
* `Loggers.configure` — how the loggers are set up for some settings.
-/

namespace CommandLine

/-- The level of a message. -/
inductive LogLevel where
  /-- no level of its own -/
  | notset
  /-- details -/
  | debug
  /-- what happens -/
  | info
  /-- what should not happen -/
  | warning
  /-- what fails -/
  | error
  /-- what ends the program -/
  | critical
  deriving DecidableEq

namespace LogLevel

/-- The number of a level: messages of lower numbers are left out. -/
def number : LogLevel → Nat
  | notset => 0
  | debug => 10
  | info => 20
  | warning => 30
  | error => 40
  | critical => 50

/-- The name of a level. -/
def name : LogLevel → Text
  | notset => "NOTSET".toList
  | debug => "DEBUG".toList
  | info => "INFO".toList
  | warning => "WARNING".toList
  | error => "ERROR".toList
  | critical => "CRITICAL".toList

/-- Every name with its level: two levels have a second name. -/
def names : List (Text × LogLevel) :=
  [notset, debug, info, warning, error, critical].map (fun l => (l.name, l))
    ++ [("WARN".toList, warning), ("FATAL".toList, critical)]

/-- The level of a name in upper case. -/
def ofName? (t : Text) : Option LogLevel := (names.find? fun n => n.1 == t).map (·.2)

end LogLevel

/-- A style in which formats are written: the character that marks it, the name of its class, and
the format that is used in it if no other is given. -/
structure FormatStyle where
  /-- the character that marks the style -/
  mark : Char
  /-- the name of its class -/
  className : Text
  /-- the format that is used in it -/
  format : Text

namespace FormatStyle

/-- The format that is used if no other is given, in the first style. -/
def basicFormat : Text := "%(levelname)s:%(name)s:%(message)s".toList

/-- Every style. -/
def all : List FormatStyle :=
  [⟨'%', "PercentStyle".toList, basicFormat⟩,
    ⟨'\x7b', "StrFormatStyle".toList,
      "\x7blevelname\x7d:\x7bname\x7d:\x7bmessage\x7d".toList⟩,
    ⟨'$', "StringTemplateStyle".toList,
      "$\x7blevelname\x7d:$\x7bname\x7d:$\x7bmessage\x7d".toList⟩]

/-- A style in the table of styles. -/
def display (s : FormatStyle) : Text :=
  Text.quoted [s.mark] ++ ": (<class 'logging.".toList ++ s.className ++ "'>, ".toList
    ++ s.format.quoted ++ [')']

/-- The table of styles. -/
def table : Text := '\x7b' :: Text.join [',', ' '] (all.map display) ++ ['\x7d']

end FormatStyle

/-- Why a name names no level. -/
inductive LevelNameError where
  /-- nothing has this name, which is in upper case -/
  | unknown (name : Text)
  /-- the name of the basic format -/
  | format
  /-- the name of the table of styles -/
  | styles
  deriving DecidableEq

/-- What is said about a name that names no level. -/
def LevelNameError.message : LevelNameError → Text
  | unknown name => "module 'logging' has no attribute '".toList ++ name ++ ['\'']
  | format => "Unknown level: ".toList ++ FormatStyle.basicFormat.quoted
  | styles => "Level not an integer or a valid string: ".toList ++ FormatStyle.table

/-- The level of a name in any letter case. -/
def LogLevel.read (t : Text) : Except LevelNameError LogLevel :=
  let name := t.toUpper
  match LogLevel.ofName? name with
  | some l => .ok l
  | none =>
    .error <|
      if name = "BASIC_FORMAT".toList then .format
      else if name = "_STYLES".toList then .styles
      else .unknown name

/-- A logged message. -/
structure LogRecord where
  /-- its level -/
  level : LogLevel
  /-- its text -/
  message : Text
  deriving DecidableEq

/-- How the loggers are set up. -/
structure Loggers where
  /-- the level of the root logger -/
  rootLevel : LogLevel := .warning
  /-- the format of the root logger's handler, once it has one -/
  handler : Option Text := none
  /-- the level of the application's logger -/
  level : LogLevel := .notset

namespace Loggers

/-- The name of the application's logger. -/
def applicationName : Text := "shellscan".toList

/-- The format of logged messages. -/
def lineFormat : Text := "%(asctime)s - %(name)s - %(levelname)s - %(message)s".toList

/-- Sets the loggers up for a level, and says why that fails if it does. A root logger with a
handler is left as it is. A name that nothing has is noticed before anything is set up, and the name
of something else only once the root logger has its handler. -/
def configure (l : Loggers) (s : Settings) : Loggers × Option LevelNameError :=
  match LogLevel.read s.logLevel with
  | .ok level =>
    (match l.handler with
      | some _ => { l with level := level }
      | none => ⟨level, some lineFormat, level⟩, none)
  | .error (.unknown name) => (l, some (.unknown name))
  | .error e => ({ l with handler := some (l.handler.getD lineFormat) }, some e)

end Loggers

end CommandLine

import CommandLine.Json
import CommandLine.Settings.Bindings
import CommandLine.Settings.Numeral
import CommandLine.Text.Upper

/-!
# Settings

The settings of the server and of its tools, and how they are read.

A setting is taken from the values that are given directly, else from the environment, else from a
file of variables, and has a default if it is nowhere. Values and variables are found by their name
in any letter case: of several names that differ in letter case only, the first counts among the
values that are given directly, and the last among the variables. What is given need not be of the
right type: numbers are read from texts, from truth values and from floating-point values without a
fraction.

* `Settings` — the settings; a command is never limited to no characters at all.
* `FieldError` — why a given value is no setting.
* `Sources.load` — the settings, or every error in the order of the settings.
-/

namespace CommandLine

/-- The settings. -/
structure Settings where
  /-- the port the server listens on -/
  serverPort : Int := 8090
  /-- the address the server listens on -/
  serverHost : Text := "0.0.0.0".toList
  /-- the name of the level from which on messages are logged -/
  logLevel : Text := "INFO".toList
  /-- the indentation of JSON output, if it is broken into lines -/
  jsonIndent : Option Int := some 2
  /-- how many characters a command may have -/
  maxCommandLength : Nat := 65536
  /-- a command may have some -/
  maxCommandLength_pos : 0 < maxCommandLength := by decide
  deriving DecidableEq

/-- The name of a setting. -/
inductive SettingName where
  /-- the port -/
  | serverPort
  /-- the address -/
  | serverHost
  /-- the logging level -/
  | logLevel
  /-- the indentation -/
  | jsonIndent
  /-- the longest command -/
  | maxCommandLength
  deriving DecidableEq

/-- The name as it is written. -/
def SettingName.name : SettingName → Text
  | serverPort => "server_port".toList
  | serverHost => "server_host".toList
  | logLevel => "log_level".toList
  | jsonIndent => "json_indent".toList
  | maxCommandLength => "max_command_length".toList

/-- The name of the variable that holds a setting, in lower case. -/
def SettingName.variableName (n : SettingName) : Text := "shellscan_".toList ++ n.name

/-- Why a value cannot be used. -/
inductive ValueProblem where
  /-- not of a type that numbers are read from -/
  | notInteger
  /-- a text that is no numeral -/
  | noNumeral
  /-- a number with a fraction -/
  | fractional
  /-- a numeral that is too long, or a floating-point value that is too large -/
  | tooLarge
  /-- no finite number -/
  | notFinite
  /-- not a text -/
  | notText
  /-- zero or below where that is not allowed -/
  | notPositive
  deriving DecidableEq

/-- The class of a problem. -/
def ValueProblem.code : ValueProblem → Text
  | notInteger => "int_type".toList
  | noNumeral => "int_parsing".toList
  | fractional => "int_from_float".toList
  | tooLarge => "int_parsing_size".toList
  | notFinite => "finite_number".toList
  | notText => "string_type".toList
  | notPositive => "greater_than".toList

/-- The wording of a problem. -/
def ValueProblem.message : ValueProblem → Text
  | notInteger => "Input should be a valid integer".toList
  | noNumeral =>
    "Input should be a valid integer, unable to parse string as an integer".toList
  | fractional =>
    "Input should be a valid integer, got a number with a fractional part".toList
  | tooLarge => "Unable to parse input string as an integer, exceeded maximum size".toList
  | notFinite => "Input should be a finite number".toList
  | notText => "Input should be a valid string".toList
  | notPositive => "Input should be greater than 0".toList

/-- A setting whose value cannot be used. -/
structure FieldError where
  /-- the setting -/
  field : SettingName
  /-- what is wrong with its value -/
  problem : ValueProblem
  deriving DecidableEq

/-- What is wrong with a text that no number is read from. -/
def Numeral.NumeralError.problem : Numeral.NumeralError → ValueProblem
  | .malformed => .noNumeral
  | .tooLong => .tooLarge

namespace Settings

/-- The least natural number that is too large for an integer to be read from a floating-point
value. -/
def doubleLimit : Nat := 9223372036854775808

/-- An integer from a floating-point value. -/
def readDouble (x : Double) : Except ValueProblem Int :=
  match x with
  | .finite _ _ _ =>
    match x.toInt? with
    | some n => if n.natAbs < doubleLimit then .ok n else .error .tooLarge
    | none => .error .fractional
  | _ => .error .notFinite

/-- An integer from a given value. -/
def readInteger : Json → Except ValueProblem Int
  | .int n => .ok n
  | .bool b => .ok (if b then 1 else 0)
  | .float x => readDouble x
  | .str t => (Numeral.read t).mapError Numeral.NumeralError.problem
  | _ => .error .notInteger

/-- An integer or its absence from a given value. -/
def readIndent : Json → Except ValueProblem (Option Int)
  | .null => .ok none
  | v => (readInteger v).map some

/-- A length above zero from a given value. -/
def readLength (v : Json) : Except ValueProblem { n : Nat // 0 < n } :=
  match readInteger v with
  | .ok n => if h : 0 < n then .ok ⟨n.toNat, by omega⟩ else .error .notPositive
  | .error e => .error e

/-- A text from a given value. -/
def readText : Json → Except ValueProblem Text
  | .str t => .ok t
  | _ => .error .notText

end Settings

/-- Where settings come from. -/
structure Sources where
  /-- values given directly, under the names of settings -/
  values : List (Text × Json) := []
  /-- the variables of the environment in order -/
  environment : Bindings Text := []
  /-- the variables of a file in order, some of which may have no value -/
  file : Bindings (Option Text) := []

namespace Sources

/-- What is bound to the variable of a setting. Of several variables the last counts. -/
def binding? {α : Type} (b : Bindings α) (n : SettingName) : Option α :=
  (b.reverse.find? fun v => v.1.toLowerAscii == n.variableName).map (·.2)

/-- The value that is given directly. Of several names the first counts. -/
def given? (s : Sources) (n : SettingName) : Option Json :=
  (s.values.find? fun v => v.1.toLowerAscii == n.name).bind fun v => Json.find? v.1 s.values

/-- The value that is given for a setting. -/
def find? (s : Sources) (n : SettingName) : Option Json :=
  (s.given? n).or
    (((binding? s.environment n).or (binding? s.file n).join).map Json.str)

/-- A setting: what is read from its given value, or its default. -/
def read {α : Type} (s : Sources) (n : SettingName) (default : α)
    (reader : Json → Except ValueProblem α) : Except FieldError α :=
  match s.find? n with
  | none => .ok default
  | some v => (reader v).mapError fun p => ⟨n, p⟩

/-- The error of a setting, if it has one. -/
def errorOf {α : Type} : Except FieldError α → List FieldError
  | .ok _ => []
  | .error e => [e]

/-- The settings of some sources, or the errors of all settings that cannot be read. -/
def load (s : Sources) : Except (List FieldError) Settings :=
  let port := s.read .serverPort 8090 Settings.readInteger
  let host := s.read .serverHost "0.0.0.0".toList Settings.readText
  let level := s.read .logLevel "INFO".toList Settings.readText
  let indent := s.read .jsonIndent (some 2) Settings.readIndent
  let longest := s.read .maxCommandLength ⟨65536, by decide⟩ Settings.readLength
  match port, host, level, indent, longest with
  | .ok port, .ok host, .ok level, .ok indent, .ok longest =>
    .ok ⟨port, host, level, indent, longest.1, longest.2⟩
  | _, _, _, _, _ =>
    .error (errorOf port ++ errorOf host ++ errorOf level ++ errorOf indent ++ errorOf longest)

end Sources

end CommandLine

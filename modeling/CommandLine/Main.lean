import CommandLine.Json.Read
import CommandLine.Server.Launch
import CommandLine.Settings.File
import CommandLine.Tool.Call

/-!
# The program

Loads the settings from the environment and from a file of variables in the working directory,
prints the banner and answers calls. The listener is not part of this library: calls come one on a
line of standard input, as an object with the name of a tool and its arguments, and are answered one
on a line of standard output.
-/

namespace CommandLine.Program

/-- The names of the variables that hold settings. -/
def settingVariables : List Text :=
  [SettingName.serverPort, .serverHost, .logLevel, .jsonIndent, .maxCommandLength].map fun n =>
    n.variableName.toUpper

/-- The variables of the environment that have one of some names. -/
def environment (names : List Text) : IO (Bindings Text) :=
  names.filterMapM fun name => do
    pure ((← IO.getEnv (String.ofList name)).map fun value => (name, value.toList))

/-- The file of variables in the working directory; empty if there is none. -/
def fileText : IO Text := do
  try
    pure (← IO.FS.readFile ".env").toList
  catch _ => pure []

/-- Where the program takes its settings from. -/
def sources : IO Sources := do
  let file ← fileText
  let mentioned ← environment (VariableFile.references file)
  pure { environment := ← environment settingVariables, file := VariableFile.read mentioned file }

/-- What there is room for. -/
def machine : Machine := fun _ _ =>
  ⟨65536, "maximum recursion depth exceeded".toList, 1073741824⟩

/-- The answer to a line of input. -/
def answerLine (s : Settings) (line : String) : Json :=
  match Json.read? line.toList with
  | some (.obj fields) =>
    let name := match Json.find? "name".toList fields with
      | some (.str t) => t
      | _ => []
    let arguments := match Json.find? "arguments".toList fields with
      | some (.obj arguments) => some arguments
      | _ => none
    let a := Call.answer .plain machine s name arguments
    .obj [("is_error".toList, .bool a.isError), ("content".toList, .arr (a.content.map Json.str))]
  | _ => .obj [("is_error".toList, .bool true),
      ("content".toList, .arr [.str "not a call".toList])]

/-- Answers every line of input. -/
partial def serve (s : Settings) (input output : IO.FS.Stream) : IO Unit := do
  let line ← input.getLine
  if line.isEmpty then pure ()
  else
    output.putStrLn (String.ofList ((answerLine s line).write none))
    output.flush
    serve s input output

end CommandLine.Program

open CommandLine in
/-- Launches the program; settings that cannot be used stop it. -/
def main : IO UInt32 := do
  match (← Program.sources).load with
  | .error errors =>
    for e in errors do
      IO.eprintln (String.ofList (e.field.name ++ ": ".toList ++ e.problem.message))
    pure 1
  | .ok s =>
    match s.launch with
    | .error e =>
      IO.eprintln (String.ofList e.message)
      pure 1
    | .ok launch =>
      IO.print (String.ofList launch.banner)
      Program.serve s (← IO.getStdin) (← IO.getStdout)
      pure 0

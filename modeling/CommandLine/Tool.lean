import CommandLine.Json.Display
import CommandLine.Logging
import CommandLine.Report
import CommandLine.Room

/-!
# Tools

The tools read a command line and answer with a text.

* `Tool.run` — the answer of a tool to a command line: its tree and issues or its tokens as JSON,
  or one line for each issue.
* `Tool.attempt` — the same answer, where there is room for it.
* `Tool.request` — what a call by name asks for. Calls that need no settings are answered at once.
* `Request.answer` — the answer to a request under given settings, and what is logged. Commands
  that are too long are rejected.
-/

namespace CommandLine

/-- A tool that reads a command line. -/
inductive Tool where
  /-- the tree of a line and its issues -/
  | parse
  /-- the tokens of a line -/
  | tokenize
  /-- the issues of a line -/
  | check
  deriving DecidableEq

/-- An answer of a tool. -/
structure ToolResult where
  /-- the text of the answer -/
  output : Text
  /-- whether the call failed before the command line was read -/
  isError : Bool := false
  deriving DecidableEq

namespace Tool

/-- Every tool. -/
def all : List Tool := [parse, tokenize, check]

/-- The name a tool is called by. -/
def name : Tool → Text
  | parse => "parse_command_line".toList
  | tokenize => "tokenize_command_line".toList
  | check => "check_command_line".toList

/-- The tool of a given name. -/
def ofName? (t : Text) : Option Tool := all.find? fun tool => tool.name == t

/-- The name of the tool that lists the others. -/
def listName : Text := "list_shellscan_tools".toList

/-- The answer of the tool that lists the others. -/
def listing : Text := "Tools: ".toList ++ Text.join [',', ' '] (all.map name)

/-- The tree of a command line and its issues. -/
def parsePayload (command : Text) : Json :=
  .obj [("tree".toList, (Line.ofText command).toJson),
    ("issues".toList, .arr ((diagnose (Region.ofText command)).map Issue.toJson))]

/-- The tokens of a command line. -/
def tokenizePayload (command : Text) : Json := .arr ((CommandLine.tokenize command).map Token.toJson)

/-- One line for each issue of a command line, or the word that there is none. -/
def checkOutput (command : Text) : Text :=
  match diagnose (Region.ofText command) with
  | [] => "OK".toList
  | issues => Text.join ['\n'] (issues.map Issue.toText)

/-- The answer of a tool to a command line. -/
def run (s : Settings) (command : Text) : Tool → ToolResult
  | parse => { output := (parsePayload command).write s.jsonIndent }
  | tokenize => { output := (tokenizePayload command).write s.jsonIndent }
  | check => { output := checkOutput command }

/-- The answer of a tool to a command line, where there is room for it. The tree and the issues of a
line are found by going into its groups. -/
def attempt (room : Room) (s : Settings) (command : Text) : Tool → Except Failure ToolResult
  | parse => do
    room.enter (Line.ofText command).depth
    let output ← room.write s.jsonIndent (parsePayload command)
    return { output }
  | tokenize => do
    let output ← room.write s.jsonIndent (tokenizePayload command)
    return { output }
  | check => do
    room.enter (Line.ofText command).depth
    return { output := checkOutput command }

end Tool

/-- What there is room for when a tool reads a command line. -/
abbrev Machine := Tool → Text → Room

/-- Why a call fails. -/
inductive CallError where
  /-- no tool has this name -/
  | unknownTool (name : Text)
  /-- the command is a value that is not a text -/
  | notText (value : Json)
  /-- the tool has failed -/
  | failed (f : Failure)

/-- What is said about a call that fails. -/
def CallError.message : CallError → Text
  | unknownTool name => "Unknown tool: ".toList ++ name
  | notText value => ['\''] ++ value.typeName ++ "' object has no attribute 'strip'".toList
  | failed f => f.message

/-- What a call asks for. -/
inductive Request where
  /-- an answer that needs no settings -/
  | answered (result : ToolResult)
  /-- the answer of a tool to a command line -/
  | run (tool : Tool) (command : Text)

/-- The request of a call. The command is the argument of that name, and empty without one; a blank
command is answered with an error. -/
def Tool.request (name : Text) (arguments : List (Text × Json)) : Except CallError Request :=
  if name = listName then .ok (.answered { output := listing })
  else
    match Tool.ofName? name with
    | none => .error (.unknownTool name)
    | some tool =>
      match (Json.find? "command".toList arguments).getD (.str []) with
      | .str command =>
        if command.isAllBlank then
          .ok (.answered { output := "Error: No command provided".toList, isError := true })
        else .ok (.run tool command)
      | value => .error (.notText value)

/-- The answer to a request, and what is logged about it. -/
def Request.answer (machine : Machine) (s : Settings) :
    Request → Except Failure ToolResult × List LogRecord
  | .answered result => (.ok result, [])
  | .run tool command =>
    let length := Text.ofNat command.length
    let limit := Text.ofNat s.maxCommandLength
    if s.maxCommandLength < command.length then
      (.ok
        { output := "Error: Command is longer than ".toList ++ limit ++ " characters".toList
          isError := true },
        [⟨.warning, "Rejected ".toList ++ tool.name ++ " call: ".toList ++ length
          ++ " chars > ".toList ++ limit⟩])
    else
      (tool.attempt (machine tool command) s command,
        [⟨.debug, "Running ".toList ++ tool.name ++ " on ".toList ++ length ++ " chars".toList⟩])

/-- The answer to a call, and what is logged about it. -/
def Tool.execute (machine : Machine) (s : Settings) (name : Text)
    (arguments : List (Text × Json)) : Except CallError ToolResult × List LogRecord :=
  match Tool.request name arguments with
  | .error e => (.error e, [])
  | .ok request =>
    let (result, log) := request.answer machine s
    (result.mapError .failed, log)

end CommandLine

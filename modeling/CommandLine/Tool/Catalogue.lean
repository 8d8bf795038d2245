import CommandLine.Tool

/-!
# The catalogue of tools

What the server tells a client about its tools: their names, what they do, and which arguments they
take.
-/

namespace CommandLine

/-- An argument that is a text. -/
structure TextArgument where
  /-- its name -/
  name : Text
  /-- what it is for -/
  description : Text

/-- The arguments of a tool. All of them are texts and must be given; others may be given, too. -/
structure InputSchema where
  /-- the arguments -/
  arguments : List TextArgument

/-- A tool as it is listed. -/
structure ToolEntry where
  /-- the name of the tool -/
  name : Text
  /-- what it does -/
  description : Text
  /-- the arguments it takes -/
  schema : InputSchema

namespace InputSchema

/-- The arguments as a schema. -/
def toJson (s : InputSchema) : Json :=
  let properties := s.arguments.map fun a =>
    (a.name, Json.obj [("type".toList, .str "string".toList),
      ("description".toList, .str a.description)])
  let required := s.arguments.map fun a => Json.str a.name
  .obj ([("type".toList, .str "object".toList), ("properties".toList, .obj properties)]
    ++ if s.arguments.isEmpty then [] else [("required".toList, .arr required)])

end InputSchema

/-- A listed tool as a JSON value. -/
def ToolEntry.toJson (e : ToolEntry) : Json :=
  .obj [("name".toList, .str e.name), ("description".toList, .str e.description),
    ("inputSchema".toList, e.schema.toJson)]

namespace Catalogue

/-- The one argument of the tools that read a command line. -/
def commandSchema : InputSchema :=
  ⟨[⟨"command".toList,
    "The full command line (e.g., 'cat < in | sort > out && echo done')".toList⟩]⟩

/-- What a tool does, in words. -/
def description : Tool → Text
  | .parse =>
    ("Parse a shell command line into conditionals (separated by ';' or a " ++
      "background '&'), pipelines (joined by '&&' or '||') and commands " ++
      "(joined by '|'). Returns JSON with each segment's exact source span, " ++
      "the arguments and redirections of every command, and any syntax " ++
      "issues such as a dangling pipe or an unterminated quote. Nothing is " ++
      "executed or expanded.").toList
  | .tokenize =>
    ("Split a shell command line into tokens: words (quotes removed), " ++
      "redirection operators (<, >, >>, 2>, 2>>) and control operators " ++
      "(;, &, |, &&, ||, parentheses). Returns a JSON list.").toList
  | .check =>
    ("Check a shell command line for syntax errors without running it. " ++
      "Returns 'OK' or one '<position>: <message>' line per problem.").toList

/-- Every tool that is listed, the one that lists the others last. -/
def entries : List ToolEntry :=
  Tool.all.map (fun tool => ⟨tool.name, description tool, commandSchema⟩)
    ++ [⟨Tool.listName, "List all available shellscan tools".toList, ⟨[]⟩⟩]

end Catalogue

end CommandLine

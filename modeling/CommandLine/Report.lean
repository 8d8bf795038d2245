import CommandLine.Diagnosis
import CommandLine.Json
import CommandLine.Tree

/-!
# Reports

Tokens, trees and issues as JSON values. Every node of a tree starts with its exact text and
place; a command says of which kind it is, and a group holds the tree of its body.
-/

namespace CommandLine

/-- A token: its kind, what it stands for, its exact characters and its place. -/
def Token.toJson (t : Token) : Json :=
  .obj [("kind".toList, .str t.kind.name), ("text".toList, .str t.text),
    ("raw".toList, .str t.raw), ("start".toList, .nat t.start), ("stop".toList, .nat t.stop),
    ("quoted".toList, .bool t.quoted)]

/-- An issue: its class, its wording and its position. -/
def Issue.toJson (i : Issue) : Json :=
  .obj [("code".toList, .str i.problem.code), ("message".toList, .str i.problem.message),
    ("position".toList, .nat i.position)]

/-- A redirection with the stream it reroutes. -/
def Redirection.toJson (r : Redirection) : Json :=
  .obj [("op".toList, .str r.op.spelling), ("fd".toList, .nat r.fd),
    ("append".toList, .bool r.append), ("target".toList, .ofText? r.target)]

/-- The fields that every node starts with. -/
def Span.fields (s : Span) : List (Text × Json) :=
  [("text".toList, .str s.text), ("start".toList, .nat s.start), ("stop".toList, .nat s.stop)]

/-- The fields that every command ends with. -/
def Words.fields (w : Words) : List (Text × Json) :=
  [("args".toList, .arr (w.args.map Json.str)),
    ("redirections".toList, .arr (w.redirections.map Redirection.toJson))]

mutual

/-- A line with its conditionals. -/
def Line.toJson (l : Line Span) : Json :=
  .obj (l.mark.fields
    ++ [("conditionals".toList, .arr (l.conditionals.map fun c => c.toJson))])
termination_by sizeOf l
decreasing_by
  cases l
  have := List.sizeOf_lt_of_mem (by assumption)
  simp at *
  omega

/-- A conditional with its pipelines and the operators after them. -/
def Conditional.toJson (c : Conditional Span) : Json :=
  .obj (c.mark.fields
    ++ [("pipelines".toList, .arr (c.pipelines.map fun p => p.toJson)),
      ("joins".toList, .arr (c.joins.map fun k => .str k.name)),
      ("separator".toList, .str c.separator.name)])
termination_by sizeOf c
decreasing_by
  cases c
  have := List.sizeOf_lt_of_mem (by assumption)
  simp at *
  omega

/-- A pipeline with its commands. -/
def Pipeline.toJson (p : Pipeline Span) : Json :=
  .obj (p.mark.fields ++ [("commands".toList, .arr (p.commands.map fun c => c.toJson))])
termination_by sizeOf p
decreasing_by
  cases p
  have := List.sizeOf_lt_of_mem (by assumption)
  simp at *
  omega

/-- A command, or a group with its body. -/
def Command.toJson : Command Span → Json
  | .simple mark words =>
    .obj (mark.fields ++ ("kind".toList, .str "command".toList) :: words.fields)
  | .group mark body words =>
    .obj (mark.fields
      ++ ("kind".toList, .str "group".toList) :: ("body".toList, body.toJson) :: words.fields)
termination_by c => sizeOf c

end

end CommandLine

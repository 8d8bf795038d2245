import CommandLine.Tool.Dispatch

/-!
# Calls

How calls of tools are answered to clients.

* `Call.content` — the texts of the answer; an answer that is an error is a refusal.
* `Call.answer` — the answer that is sent. Whatever goes wrong becomes the text of an error.
-/

namespace CommandLine

/-- Why a call has no content. -/
inductive ContentError where
  /-- it fails -/
  | call (e : CallError)
  /-- the tool has rejected it -/
  | rejected (output : Text)

/-- What is said about a call without content. -/
def ContentError.message : ContentError → Text
  | call e => e.message
  | rejected output => output

namespace Call

/-- The texts that a tool answers to a call. Arguments may be left out. -/
def content (machine : Machine) (s : Settings) (name : Text)
    (arguments : Option (List (Text × Json))) : Except ContentError (List Text) :=
  match (Tool.execute machine s name (arguments.getD [])).1 with
  | .error e => .error (.call e)
  | .ok result => if result.isError then .error (.rejected result.output) else .ok [result.output]

/-- What becomes of a call of a tool. -/
def handler (machine : Machine) (s : Settings) : Handler := fun name given =>
  (content machine s name (some given)).mapError ContentError.message

/-- The answer to a call. -/
def answer (d : Dispatcher) (machine : Machine) (s : Settings) (name : Text)
    (arguments : Option (List (Text × Json))) : CallAnswer :=
  d.answer Catalogue.entries (handler machine s) name arguments

end Call

end CommandLine

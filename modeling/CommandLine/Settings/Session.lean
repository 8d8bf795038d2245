import CommandLine.Tool

/-!
# Sessions

The settings of a running program are loaded from the environment when they are first asked for,
and then kept until the session forgets them; changes of the environment in between do not show.
Settings that cannot be loaded are not kept.

* `Session.get` — the settings, and whether they are the very ones handed out before.
* `Session.call` — a call of a tool; a call that needs no settings never loads them.
-/

namespace CommandLine

/-- The state of a running program: its environment and the settings it has loaded. -/
structure Session where
  /-- the variables in the order in which they were added -/
  environment : Bindings Text := []
  /-- the settings that are kept -/
  loaded : Option Settings := none
  /-- whether the settings that are kept are the ones that were handed out last -/
  handedOut : Bool := false

/-- Why a step of a session fails. -/
inductive SessionError where
  /-- the settings cannot be loaded -/
  | settings (errors : List FieldError)
  /-- the call fails -/
  | call (e : CallError)

namespace Session

/-- Gives a variable a value. -/
def set (s : Session) (name value : Text) : Session :=
  { s with environment := s.environment.set name value }

/-- Removes a variable. -/
def unset (s : Session) (name : Text) : Session :=
  { s with environment := s.environment.unset name }

/-- Forgets the settings that are kept. -/
def clear (s : Session) : Session := { s with loaded := none, handedOut := false }

/-- The settings, loaded if none are kept. -/
def load (s : Session) : Except (List FieldError) (Settings × Session) :=
  match s.loaded with
  | some settings => .ok (settings, s)
  | none =>
    (Sources.load { environment := s.environment }).map fun settings =>
      (settings, { s with loaded := some settings, handedOut := false })

/-- Hands the settings out, and says whether they are the very ones handed out before. -/
def get (s : Session) : Except SessionError (Settings × Bool × Session) :=
  match s.load with
  | .ok (settings, s) => .ok (settings, s.handedOut, { s with handedOut := true })
  | .error errors => .error (.settings errors)

/-- Answers a call of a tool. The settings are kept even if the tool fails. -/
def call (machine : Machine) (s : Session) (name : Text) (arguments : List (Text × Json)) :
    Except SessionError ToolResult × Session :=
  match Tool.request name arguments with
  | .error e => (.error (.call e), s)
  | .ok (.answered result) => (.ok result, s)
  | .ok request =>
    match s.load with
    | .ok (settings, s) =>
      ((request.answer machine settings).1.mapError fun f => .call (.failed f), s)
    | .error errors => (.error (.settings errors), s)

end Session

end CommandLine

import CommandLine.Json.Display
import CommandLine.Tool.Catalogue

/-!
# Dispatch

Between a client and the tools stands a library that is not part of this one. It knows the tools
that are listed, checks the arguments of a call against them, and turns whatever a tool returns or
raises into an answer.

* `Handler`, `CallAnswer` — what such a library is given, and what it sends.
* `Dispatcher` — such a library.
* `Dispatcher.Documented` — what is known of it.
* `Dispatcher.plain` — one that does this and nothing else.
-/

namespace CommandLine

/-- What becomes of a call by a name with some arguments: texts, or an exception with a text. -/
abbrev Handler := Text → List (Text × Json) → Except Text (List Text)

/-- The answer that a client is sent. -/
structure CallAnswer where
  /-- whether the call has failed -/
  isError : Bool
  /-- the items of the answer, which are all texts -/
  content : List Text
  deriving DecidableEq

/-- An exception is answered with its text. -/
def CallAnswer.ofOutcome : Except Text (List Text) → CallAnswer
  | .ok content => ⟨false, content⟩
  | .error message => ⟨true, [message]⟩

/-- The answer to a call whose arguments do not fit. -/
def CallAnswer.invalid (complaint : Text) : CallAnswer :=
  ⟨true, ["Input validation error: ".toList ++ complaint]⟩

/-- A library that answers calls of tools. -/
structure Dispatcher where
  /-- what is wrong with some arguments -/
  complaint? : InputSchema → List (Text × Json) → Option Text
  /-- the answer to a call by a name, given the tools that are listed and what becomes of calls;
  a call may come without arguments -/
  answer : List ToolEntry → Handler → Text → Option (List (Text × Json)) → CallAnswer

namespace Dispatcher

/-- What is known of a library that answers calls of tools. -/
structure Documented (d : Dispatcher) : Prop where
  /-- arguments fit if each one of the schema is given and is a text -/
  complaint?_eq_none_iff : ∀ schema given, d.complaint? schema given = none ↔
    ∀ a ∈ schema.arguments, ∃ t, Json.find? a.name given = some (.str t)
  /-- the only argument of a schema may be missing -/
  complaint?_of_missing : ∀ a given, Json.find? a.name given = none →
    d.complaint? ⟨[a]⟩ given = some (a.name.quoted ++ " is a required property".toList)
  /-- it may be no text -/
  complaint?_of_notText : ∀ a given value, Json.find? a.name given = some value →
    (∀ t, value ≠ .str t) →
    d.complaint? ⟨[a]⟩ given = some (value.display ++ " is not of type 'string'".toList)
  /-- arguments of tools that are not listed are not checked; left out, there are none -/
  answer_of_unlisted : ∀ entries handler name arguments, (∀ e ∈ entries, e.name ≠ name) →
    d.answer entries handler name arguments = .ofOutcome (handler name (arguments.getD []))
  /-- a call of a listed tool is not made with arguments that do not fit -/
  answer_of_complaint : ∀ (entries : List ToolEntry) handler e arguments complaint,
    (entries.map ToolEntry.name).Nodup → e ∈ entries →
    d.complaint? e.schema (arguments.getD []) = some complaint →
    d.answer entries handler e.name arguments = .invalid complaint
  /-- it is made with arguments that fit -/
  answer_of_valid : ∀ (entries : List ToolEntry) handler e arguments,
    (entries.map ToolEntry.name).Nodup → e ∈ entries →
    d.complaint? e.schema (arguments.getD []) = none →
    d.answer entries handler e.name arguments = .ofOutcome (handler e.name (arguments.getD []))

/-- What is wrong with some arguments: one that is no text, or else one that is missing. -/
def firstComplaint? (schema : InputSchema) (given : List (Text × Json)) : Option Text :=
  let wrong := schema.arguments.findSome? fun a =>
    match Json.find? a.name given with
    | some (.str _) => none
    | some value => some (value.display ++ " is not of type 'string'".toList)
    | none => none
  let missing := schema.arguments.findSome? fun a =>
    match Json.find? a.name given with
    | some _ => none
    | none => some (a.name.quoted ++ " is a required property".toList)
  wrong.or missing

/-- A library that does no more than is known. -/
def plain : Dispatcher where
  complaint? := firstComplaint?
  answer entries handler name arguments :=
    let given := arguments.getD []
    match entries.find? fun e => e.name == name with
    | none => .ofOutcome (handler name given)
    | some e =>
      match firstComplaint? e.schema given with
      | some complaint => .invalid complaint
      | none => .ofOutcome (handler name given)

end Dispatcher

end CommandLine

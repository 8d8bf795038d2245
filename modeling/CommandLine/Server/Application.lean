import CommandLine.Json.Display
import CommandLine.Logging

/-!
# The application

How the server answers requests. A client connects by a `GET` of the stream path, which hands the
connection to the transport for as long as it lasts; sends its messages by a `POST` to the message
path; and may probe the stream path by a `POST`. Everything else is not found. Only requests of the
`http` kind are answered.

* `Transport` — what the transport does when it is used: it may fail at each of its three uses.
* `Exchange` — everything that an answer shows: the messages sent, the uses of the transport, the
  log, and a failure that is passed on.
* `Application.answer` — the answer to a request.
-/

namespace CommandLine

/-- A request, as far as it is looked at. Each field may be missing. -/
structure HttpRequest where
  /-- the kind of the request -/
  kind : Option Json
  /-- the path that is asked for -/
  path : Option Json
  /-- the method -/
  method : Option Json
  /-- the address of the client, if it is known -/
  client : Option Json

/-- What the transport does. -/
inductive Transport where
  /-- it works -/
  | works
  /-- it fails to connect -/
  | failsToConnect (message : Text)
  /-- it fails while the server runs -/
  | failsToRun (message : Text)
  /-- it fails to take a message -/
  | failsToPost (message : Text)

/-- A use of the transport. -/
inductive TransportUse where
  /-- a connection is opened for a request -/
  | connect (method path : Text)
  /-- the server runs on the streams of the connection -/
  | run (server : Text)
  /-- the connection is closed -/
  | disconnect
  /-- a message is handed over -/
  | post (method path : Text)
  deriving DecidableEq

/-- A response as it is sent: a status and a plain text. -/
structure HttpResponse where
  /-- the status -/
  status : Nat
  /-- the text -/
  body : Text
  deriving DecidableEq

/-- Why the application does not answer. -/
inductive RequestError where
  /-- the request lacks a field -/
  | missingField (name : Text)
  /-- the transport has failed -/
  | transport (message : Text)

/-- What is said about a request that is not answered. -/
def RequestError.message : RequestError → Text
  | missingField name => name.quoted
  | transport message => message

/-- Everything that an answer shows. -/
structure Exchange where
  /-- the response, if one is sent -/
  sent : Option HttpResponse := none
  /-- the uses of the transport in order -/
  uses : List TransportUse := []
  /-- what is logged -/
  log : List LogRecord := []
  /-- the failure that is passed on -/
  failure : Option RequestError := none

namespace Application

/-- The name of the server. -/
def serverName : Text := "shellscan-server".toList

/-- The path of the stream. -/
def streamPath : Text := "/sse".toList

/-- The path that messages are sent to. -/
def messagePath : Text := "/messages".toList

/-- Whether a field is a given text. -/
def isText (v : Json) (t : Text) : Bool :=
  match v with
  | .str u => u == t
  | _ => false

/-- A client as the log shows it: an address of several parts stands in parentheses, a text as it
is. -/
def showClient : Option Json → Text
  | some (.arr parts) => Json.displayTuple parts
  | some (.str t) => t
  | some v => v.display
  | none => Json.null.display

/-- An answer that only a response shows. -/
def respond (status : Nat) (body : Text) : Exchange := { sent := some ⟨status, body⟩ }

/-- A connection from its opening to its end. A failure of the transport ends it and is logged. -/
def connect (transport : Transport) (client : Option Json) : Exchange :=
  let opened : LogRecord := ⟨.info, "New connection from ".toList ++ showClient client⟩
  let shaken : LogRecord := ⟨.info, "Handshake success. Server running...".toList⟩
  let failed := fun (message : Text) =>
    (⟨.error, "Connection error: ".toList ++ message⟩ : LogRecord)
  let connected : TransportUse := .connect "GET".toList streamPath
  match transport with
  | .failsToConnect message => { uses := [connected], log := [opened, failed message] }
  | .failsToRun message =>
    { uses := [connected, .run serverName], log := [opened, shaken, failed message] }
  | _ =>
    { uses := [connected, .run serverName, .disconnect]
      log := [opened, shaken, ⟨.info, "Connection closed".toList⟩] }

/-- A message that is handed to the transport. A failure is passed on. -/
def post (transport : Transport) : Exchange :=
  { uses := [.post "POST".toList messagePath]
    log := [⟨.debug, "Message received (POST ".toList ++ messagePath ++ [')']⟩]
    failure :=
      match transport with
      | .failsToPost message => some (.transport message)
      | _ => none }

/-- The answer to a request by its path and method. -/
def route (transport : Transport) (client : Option Json) (path method : Json) : Exchange :=
  if isText path streamPath && isText method "GET".toList then connect transport client
  else if isText path messagePath && isText method "POST".toList then post transport
  else if isText path streamPath && isText method "POST".toList then respond 200 "OK".toList
  else respond 404 "Not Found".toList

/-- The answer to a request. -/
def answer (transport : Transport) (r : HttpRequest) : Exchange :=
  match r.kind with
  | none => { failure := some (.missingField "type".toList) }
  | some kind =>
    if isText kind "http".toList then
      match r.path with
      | none => { failure := some (.missingField "path".toList) }
      | some path =>
        match r.method with
        | none => { failure := some (.missingField "method".toList) }
        | some method => route transport r.client path method
    else {}

end Application

end CommandLine

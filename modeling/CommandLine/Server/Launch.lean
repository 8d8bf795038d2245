import CommandLine.Logging

/-!
# Launching the server

The server is launched under its settings: the loggers are set up, a banner is printed, and the
listener is started. A name that names no level stops the launch before anything is printed.
-/

namespace CommandLine

/-- How the listener is started. -/
structure Listener where
  /-- the address to listen on -/
  host : Text
  /-- the port to listen on -/
  port : Int
  /-- the listener's own logging level -/
  logLevel : Text
  deriving DecidableEq

/-- What a launch does. -/
structure Launch where
  /-- what is printed -/
  banner : Text
  /-- the listener that is started -/
  listener : Listener
  deriving DecidableEq

/-- The lines that are printed when the server starts. -/
def Settings.banner (s : Settings) : Text :=
  let rule := List.replicate 60 '=' ++ ['\n']
  rule ++ "SHELLSCAN MCP SERVER\n".toList ++ "Listening on ".toList ++ s.serverHost ++ [':']
    ++ Text.ofInt s.serverPort ++ ['\n'] ++ rule

/-- Launches the server. A level's name has no capitals besides those of ASCII, so these are all
there is to write in lower case. -/
def Settings.launch (s : Settings) : Except LevelNameError Launch :=
  match (Loggers.configure {} s).2 with
  | none => .ok ⟨s.banner, ⟨s.serverHost, s.serverPort, s.logLevel.toLowerAscii⟩⟩
  | some e => .error e

end CommandLine

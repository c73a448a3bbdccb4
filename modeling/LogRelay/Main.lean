import LogRelay.Daemon
import LogRelay.Yaml.Document
/-!
# The command line

The program finds its settings in the environment and in its arguments.  It then serves the requests
that stand on standard input, one on each line: the method, the target and the body, with one blank
between them.  What the daemon does is written to standard output, one event on each line.
-/
namespace LogRelay.CommandLine

/-- The environment variables of all settings. -/
def environment : IO (Members Text Text) := do
  let mut found : Members Text Text := []
  for s in Setting.all do
    match ← IO.getEnv s.environmentName.toString with
    | some value => found := found ++ [(s.environmentName, Text.ofString value)]
    | none => pure ()
  return found

/-- The lines of standard input. -/
partial def lines (input : IO.FS.Stream) (read : List String) : IO (List String) := do
  let line ← input.getLine
  if line.isEmpty then return read.reverse
  lines input (line :: read)

/-- The request on a line. -/
def request (line : String) : Http.Request :=
  let blank := CodePoint.ofChar ' '
  let t := Text.trim (Text.ofString line)
  let (method, rest) := (Text.cut? blank t).getD (t, [])
  let (target, body) := (Text.cut? blank rest).getD (rest, [])
  { method, target, body := Utf8.encodeLossy body }

/-- An answer as a line shows it. -/
def shownReply (r : Http.Reply) : Text :=
  Text.ofNat r.status ++ " " ++ match r with
    | .json _ body => body.render
    | .frames frames | .broken frames _ => frames.flatten.flatMap fun b => Text.hex 2 b.toNat
    | .header _ | .page _ => r.mediaType

/-- An event as a line shows it. -/
def shown : Daemon.Event → Text
  | .logLevel level => "log level " ++ level
  | .producer brokers => "producer " ++ Text.join "," brokers
  | .signal .interrupt => "signal INT"
  | .signal .terminate => "signal TERM"
  | .serve socketPath => "serve " ++ socketPath
  | .consumer brokers => "consumer " ++ Text.join "," brokers
  | .reply r => shownReply r

/-- How deep documents may nest.  No input that is worth reading comes near that. -/
def nesting : Nat := 900

/-- Run the daemon on the requests on standard input. -/
def run (args : List String) : IO UInt32 := do
  let sources : Sources := {
    loader := Yaml.load nesting
    depth := nesting
    environment := ← environment
    arguments := args.map Text.ofString }
  let requests ← lines (← IO.getStdin) []
  let outcome := Daemon.run sources [] ⟨nesting, nesting⟩ {} (requests.map request) .returned
  for event in outcome.events do
    IO.println (shown event).toString
  match outcome.ending with
  | .ok _ => return 0
  | .error (.settings e) =>
    IO.eprintln e.message.toString
    return 1
  | .error (.capacity _) =>
    IO.eprintln "the log of failures cannot have that size"
    return 1

end LogRelay.CommandLine

/-- The program. -/
def main (args : List String) : IO UInt32 :=
  LogRelay.CommandLine.run args

import Std.Time.DateTime.Timestamp
import Transponder.Command.Session

/-!
# The program

The outer layer: it reads the command line, the environment, the clock and the input, hands each line
to a `Session` as soon as it has ended, and writes what the session answers. Reports and sentences go
to the standard output, everything else to the standard error.
-/

namespace Transponder.Command

/-- What the clock shows. -/
def clock : IO ClockReading := do
  let now := Moment.ofNanoseconds (← Std.Time.Timestamp.now).toNanosecondsSinceUnixEpoch.val
  return ⟨now, now⟩

/-- The settings in the environment of the process. -/
def environment : IO Environment := do
  let texts ← Environment.names.mapM fun name => do return (name, ← IO.getEnv name)
  return fun name => (texts.lookup name).join

/-- Takes one line, and writes the answer. -/
def feed (s : Session) (number : Nat) (line : List UInt8) : IO Session := do
  match Text.ofUtf8? line with
  | none => throw (IO.userError (unreadable number))
  | some text =>
    let (s, out) := s.line (← clock) text
    let stdout ← IO.getStdout
    stdout.putStr out
    return s

/-- Takes lines, the first of which has the given number. -/
def feedAll (s : Session) (number : Nat) : List (List UInt8) → IO Session
  | [] => return s
  | line :: rest => do feedAll (← feed s number line) (number + 1) rest

/-- The bytes that are read at a time. -/
def chunkSize : USize :=
  4096

/-- Takes the lines of a stream; `rest` is the start of the one that has not ended. -/
partial def feedStream (input : IO.FS.Stream) (s : Session) (number : Nat) (rest : List UInt8) :
    IO Unit := do
  let chunk ← input.read chunkSize
  if chunk.isEmpty then
    unless rest.isEmpty do discard (feed s number rest)
  else
    let (ended, rest) := Text.splitLines (rest ++ chunk.toList)
    let s ← feedAll s number (ended.map Text.dropReturn)
    feedStream input s (number + ended.length) rest

/-- Why a file cannot be opened. -/
def reasonOf : IO.Error → String
  | .noFileOrDirectory .. => missingFile
  | e => toString e

/-- The stream that a command reads. -/
def openInput (request : Request) : IO IO.FS.Stream := do
  match request.source with
  | none => IO.getStdin
  | some name =>
    try
      return IO.FS.Stream.ofHandle (← IO.FS.Handle.mk name .read)
    catch e => throw (IO.userError (unopened name (reasonOf e)))

/-- Runs a command on the input that it names. -/
def perform (request : Request) : IO Unit := do
  match Session.start (← environment) request with
  | .error e => throw (IO.userError ("invalid encoder settings: " ++ e.message))
  | .ok session => feedStream (← openInput request) session 1 []

/-- What is said about the program. -/
def usage : String :=
  String.intercalate "\n" [
    "Decode and encode AIS messages carried in NMEA 0183 sentences",
    "",
    "Usage: ais <COMMAND>",
    "",
    "Commands:",
    "  decode  Read sentences and write one report line per message",
    "  encode  Read records in JSON, one per line, and write sentences",
    "  help    Print this message"]

/-- Says why a command line does not run, and the exit code. -/
def explain : UsageError → IO UInt32
  | .help => do
    IO.println usage
    return 0
  | .version => do
    IO.println "ais 0.1.0"
    return 0
  | .missingSubcommand => do
    IO.eprintln usage
    return 2
  | e => do
    IO.eprintln ("error: " ++ e.message)
    return 2

end Transponder.Command

open Transponder.Command in
/-- The program. -/
def main (args : List String) : IO UInt32 := do
  match parse args with
  | .error e => explain e
  | .ok request =>
    try
      perform request
      return 0
    catch e =>
      IO.eprintln ("Error: " ++ toString e)
      return 1

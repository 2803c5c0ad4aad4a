import Transponder.Command.Arguments
import Transponder.Report.Line
import Transponder.Schema.Message
import Transponder.Settings.Environment
import Transponder.Station.Receiver
import Transponder.Station.Transmitter
import Transponder.Text.Lines

/-!
# Running a command

A `Session` takes the lines of the input one after the other, each with a reading of the clock, and
answers what is to be written for it. Lines that are blank or of no use write nothing. `run` takes a
whole input.
-/

namespace Transponder.Command

/-- What the clock shows while a line is taken: when the line was heard, and the date of a report on
a message that does not say when it was received. -/
structure ClockReading where
  heard : Moment
  dated : Moment

/-- A receiver that writes reports. -/
structure Reporter where
  receiver : Receiver
  format : ReportFormat
  /-- The types whose column names have been written. -/
  headed : List UInt8 := []

/-- The lines that report a message. -/
def Reporter.report (r : Reporter) (m : Message) (time : Moment) : Reporter × List String :=
  match r.format with
  | .json => (r, [m.jsonLine time])
  | .csv =>
    if m.messageType ∈ r.headed then (r, [m.csvLine time])
    else
      ({ r with headed := m.messageType :: r.headed },
        [Report.header m.messageType, m.csvLine time])

/-- Takes a line of sentences. A message was received when its sentence says, or else now. -/
def Reporter.line (r : Reporter) (reading : ClockReading) (line : String) :
    Reporter × List String :=
  let line := Text.trimmed line
  if line.isEmpty then (r, [])
  else
    match r.receiver.parse reading.heard line with
    | (receiver, some received) =>
      { r with receiver }.report received.message
        ((received.receivedAt.map Instant.moment).getD reading.dated)
    | (receiver, none) => ({ r with receiver }, [])

/-- Takes a line with a record. -/
def sendLine (t : Transmitter) (line : String) : Transmitter × List String :=
  if (Text.trim line.toList).isEmpty then (t, [])
  else
    match Message.ofText? line with
    | none => (t, [])
    | some m =>
      match t.encode m with
      | (t, .ok sentences) => (t, sentences.map (·.render))
      | (t, .error _) => (t, [])

/-- A command that runs. -/
inductive Session where
  | decoding (reporter : Reporter)
  | encoding (transmitter : Transmitter)

namespace Session

/-- A session of a command, unless its settings are refused. -/
def start (env : Environment) : Request → Except Error Session
  | .decode o =>
    .ok (decoding ⟨.start (o.settings (.ofEnvironment env)), o.format, []⟩)
  | .encode o => do
    let settings := o.settings (.ofEnvironment env)
    settings.check
    return encoding { settings }

/-- Takes a line, and answers the text to write. -/
def line (s : Session) (reading : ClockReading) (line : String) : Session × String :=
  match s with
  | decoding r =>
    let (r, out) := r.line reading line
    (decoding r, String.join (out.map (· ++ "\n")))
  | encoding t =>
    let (t, out) := sendLine t line
    (encoding t, String.join out)

end Session

/-- What a run has written, and why it failed, if it did. -/
structure Outcome where
  output : String
  failure : Option String
deriving DecidableEq

/-- The failure of a line whose bytes are no text. -/
def unreadable (number : Nat) : String :=
  s!"reading line {number}: stream did not contain valid UTF-8"

/-- Takes lines, the first of which has the given number, up to one that is no text. The clock is
given by what it shows at each line. -/
def Session.linesAt (s : Session) (clock : Nat → ClockReading) (number : Nat) :
    List (List UInt8) → Outcome
  | [] => ⟨"", none⟩
  | bytes :: rest =>
    match Text.ofUtf8? bytes with
    | none => ⟨"", some (unreadable number)⟩
    | some text =>
      let (s, out) := s.line (clock number) text
      let later := s.linesAt clock (number + 1) rest
      ⟨out ++ later.output, later.failure⟩

/-- Takes lines while the clock shows the same. -/
def Session.lines (s : Session) (now : Moment) (number : Nat) (lines : List (List UInt8)) :
    Outcome :=
  s.linesAt (fun _ => ⟨now, now⟩) number lines

/-- The reason why a file that is not there cannot be opened. -/
def missingFile : String :=
  "No such file or directory (os error 2)"

/-- The failure of an input that cannot be opened. -/
def unopened (name reason : String) : String :=
  "opening " ++ name ++ ": " ++ reason

/-- Runs a command on an input that has come as a whole. -/
def run (env : Environment) (openFile : String → Except String (List UInt8)) (stdin : List UInt8)
    (now : Moment) (request : Request) : Outcome :=
  match Session.start env request with
  | .error e => ⟨"", some e.message⟩
  | .ok session =>
    match request.source with
    | none => session.lines now 1 (Text.lines stdin)
    | some name =>
      match openFile name with
      | .error reason => ⟨"", some (unopened name reason)⟩
      | .ok bytes => session.lines now 1 (Text.lines bytes)

end Transponder.Command

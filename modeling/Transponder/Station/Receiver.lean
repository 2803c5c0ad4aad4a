import Transponder.Bits.Armor
import Transponder.Layout.Message
import Transponder.Sentence.Basic
import Transponder.Sentence.Fragment
import Transponder.Settings.Basic

/-!
# Receiving

A `Receiver` turns lines into messages. It keeps the fragments of messages that have not come as a
whole yet, and counts what becomes of the lines. A line that cannot be used changes nothing but the
counts.
-/

namespace Transponder

/-- What has become of the lines so far. A counter that is full starts again. -/
structure Statistics where
  sentences : UInt64 := 0
  decoded : UInt64 := 0
  /-- Fragments of messages that were not complete yet. -/
  pending : UInt64 := 0
  checksumFailures : UInt64 := 0
  malformed : UInt64 := 0
  truncated : UInt64 := 0

/-- A message, and what its last sentence said about it. -/
structure Received where
  message : Message
  ownVessel : Bool
  channel : Option Char
  receivedAt : Option Instant

/-- The message in an armored payload whose last bits are filling. -/
def Message.ofPayload (payload : String) (fillBits : Nat) : Except Error Message :=
  let bits := Bits.ofArmor payload
  Message.decode (bits.truncate (bits.length - fillBits))

/-- A station that listens. -/
structure Receiver where
  settings : ReceiverSettings
  table : FragmentTable
  statistics : Statistics := {}

namespace Receiver

def start (settings : ReceiverSettings) : Receiver :=
  { settings, table := .empty settings.maxReassemblyAge }

/-- The key of the message that a sentence belongs to. -/
def keyOf (s : Sentence) : FragmentKey :=
  ⟨s.sequenceId, s.channel, s.fragmentCount.toNat⟩

/-- The payload of the message that a sentence completes. -/
def collect (r : Receiver) (now : Moment) (s : Sentence) : FragmentTable × Except Error Fragment :=
  let fragment : Fragment := ⟨s.payload, s.fillBits.toNat⟩
  if s.isMultipart && r.settings.enableReassembly then
    let key := keyOf s
    let (table, received) := r.table.add now key s.fragmentNumber.toNat fragment
    match table.take? key with
    | some (whole, table) => (table, .ok whole)
    | none => (table, .error (.incomplete received key.total))
  else (r.table, .ok fragment)

/-- The message in a payload, with what the sentence says about it. -/
def open? (s : Sentence) (whole : Fragment) : Except Error Received := do
  return {
    message := ← Message.ofPayload whole.payload whole.fillBits
    ownVessel := s.address.isOwnVessel
    channel := s.channel
    receivedAt := s.receivedAt }

/-- Takes a line when the clock shows `now`, and says why it gives no message. -/
def decode (r : Receiver) (now : Moment) (line : String) : Receiver × Except Error Received :=
  match Sentence.parse line r.settings.validateChecksum with
  | .error e => (r, .error e)
  | .ok s =>
    let (table, payload) := r.collect now s
    let r := { r with table }
    match payload.bind (open? s) with
    | .ok received =>
      ({ r with statistics.decoded := r.statistics.decoded + 1 }, .ok received)
    | .error e => (r, .error e)

/-- Counts a line that gave no message. -/
def countFailure (s : Statistics) : Error → Statistics
  | .incomplete _ _ => { s with pending := s.pending + 1 }
  | .checksumMismatch _ _ => { s with checksumFailures := s.checksumFailures + 1 }
  | .truncated _ _ _ => { s with truncated := s.truncated + 1 }
  | _ => { s with malformed := s.malformed + 1 }

/-- Takes a line when the clock shows `now`, and counts it. -/
def parse (r : Receiver) (now : Moment) (line : String) : Receiver × Option Received :=
  let r := { r with statistics.sentences := r.statistics.sentences + 1 }
  match r.decode now line with
  | (r, .ok received) => (r, some received)
  | (r, .error e) => ({ r with statistics := countFailure r.statistics e }, none)

/-- Takes lines one after the other, and keeps the messages. -/
def parseAll (r : Receiver) : List (Moment × String) → Receiver × List Message
  | [] => (r, [])
  | (now, line) :: rest =>
    let (r, received) := r.parse now line
    let (r, messages) := r.parseAll rest
    (r, (received.map (·.message)).toList ++ messages)

/-- Gives up all messages that are not complete. -/
def clear (r : Receiver) : Receiver :=
  { r with table := r.table.clear }

end Receiver

end Transponder

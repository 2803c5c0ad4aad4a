import Transponder.Bits.Armor
import Transponder.Layout.Message
import Transponder.Sentence.Basic
import Transponder.Settings.Basic
import Transponder.Text.Lines

/-!
# Sending

A `Transmitter` turns messages into sentences. A payload that is too long for one sentence is cut
into pieces, and the sentences of such a message share a sequence id.
-/

namespace Transponder

/-- A list in pieces of `n` elements, the last of which may be shorter. -/
def pieces {α : Type} (n : Nat) (xs : List α) : List (List α) :=
  if n = 0 ∨ xs.length ≤ n then [xs] else xs.take n :: pieces n (xs.drop n)
termination_by xs.length
decreasing_by
  rw [List.length_drop]
  omega

/-- A station that sends. -/
structure Transmitter where
  settings : TransmitterSettings
  /-- The id of the next message in several sentences. -/
  nextSequenceId : Nat := 0

namespace Transmitter

/-- What a text is cut into, if it is too long for one sentence. It is cut by its bytes, and a piece
that is no text of its own is left out. -/
def chunks (settings : TransmitterSettings) (armored : String) : List String :=
  let bytes := Text.utf8 armored.toList
  if settings.enableFragmentation ∧ settings.maxFragmentLength < bytes.length then
    (pieces settings.maxFragmentLength bytes).filterMap Text.ofUtf8?
  else [armored]

/-- The payloads of the sentences of a message. -/
def payloads (settings : TransmitterSettings) (armored : String) : Except Error (List String) :=
  let parts := chunks settings armored
  if maxFragments < parts.length then
    .error (.unencodable "payload"
      (.tooManyFragments (Text.byteLength armored.toList) parts.length))
  else .ok parts

/-- The address of the sentences. -/
def address (settings : TransmitterSettings) : Address :=
  .ofTalker settings.talker (if settings.ownVessel then .vdo else .vdm)

/-- The id of the sentences of the next message, and the transmitter after it. -/
def takeSequenceId (t : Transmitter) : Nat × Transmitter :=
  match t.settings.sequenceId with
  | some id => (id.toNat, t)
  | none =>
    (t.nextSequenceId, { t with nextSequenceId := (t.nextSequenceId + 1) % (maxSequenceId + 1) })

/-- The sentences with some payloads. -/
def sentences (settings : TransmitterSettings) (sequenceId : String) (fillBits : Nat)
    (payloads : List String) : List Sentence :=
  let count := payloads.length
  payloads.mapIdx fun i payload =>
    { address := address settings
      fragmentCount := UInt8.ofNat count
      fragmentNumber := UInt8.ofNat (i + 1)
      sequenceId
      channel := some settings.channel
      payload
      fillBits := if i + 1 = count then UInt8.ofNat fillBits else 0 }

/-- The sentences of a message. -/
def encode (t : Transmitter) (message : Message) : Transmitter × Except Error (List Sentence) :=
  let prepared := do
    t.settings.check
    let bits ← message.encode
    return (Bits.fillBits bits.length, ← payloads t.settings bits.armored)
  match prepared with
  | .error e => (t, .error e)
  | .ok (fillBits, parts) =>
    if parts.length ≤ 1 then (t, .ok (sentences t.settings "" fillBits parts))
    else
      let (id, t) := t.takeSequenceId
      (t, .ok (sentences t.settings (toString id) fillBits parts))

end Transmitter

end Transponder

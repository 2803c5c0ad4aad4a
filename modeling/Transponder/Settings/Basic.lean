import Transponder.Error
import Transponder.Schema.Basic
import Transponder.Text.Blank

/-!
# Settings

What can be chosen about receiving and sending. Settings are read from JSON, where each of them may
be left out, and from named texts such as those of an environment, where a text that makes no sense
counts as missing.
-/

namespace Transponder

/-- The choices about receiving. -/
structure ReceiverSettings where
  /-- Whether the checksum of a sentence must be there and agree. -/
  validateChecksum : Bool := true
  /-- Whether the sentences of a message are put together. -/
  enableReassembly : Bool := true
  /-- How long the rest of a message is waited for, in seconds. -/
  maxReassemblyAge : Nat := 60
deriving DecidableEq

/-- The choices about sending. -/
structure TransmitterSettings where
  /-- Whether long messages are spread over several sentences. -/
  enableFragmentation : Bool := true
  /-- The longest payload of one of them. -/
  maxFragmentLength : Nat := 60
  channel : Char := 'A'
  /-- The id of the sentences of a message; if there is none, the ids from 0 to 9 take turns. -/
  sequenceId : Option UInt8 := none
  talker : String := "AI"
  /-- Whether messages are about the own vessel. -/
  ownVessel : Bool := false
deriving DecidableEq

/-- The largest sequence id. -/
def maxSequenceId : Nat :=
  9

/-- Whether a character can name a channel to send on. -/
def isChannelName (c : Char) : Bool :=
  c.isAlphanum

/-- Whether a text can be the talker that sends. -/
def isTalkerName (s : String) : Bool :=
  s.length = 2 && s.toList.all Char.isAlpha

/-- Refuses settings with which sentences could not be read back. -/
def TransmitterSettings.check (s : TransmitterSettings) : Except Error Unit := do
  if !isChannelName s.channel then .error (.unencodable "channel" (.notAChannel s.channel))
  if !isTalkerName s.talker then .error (.unencodable "talker" (.notATalker s.talker))
  match s.sequenceId with
  | some id =>
    if maxSequenceId < id.toNat then
      .error (.unencodable "sequence_id" (.sequenceIdOutside id.toNat))
  | none => .ok ()
  if s.maxFragmentLength = 0 then .error (.unencodable "max_fragment_chars" .zeroFragmentLength)

namespace Schema

def receiverSettings : Schema ReceiverSettings :=
  let d : ReceiverSettings := {}
  record (ReceiverSettings.mk
    <$> fieldOr d.validateChecksum "validate_checksum" bool (·.validateChecksum)
    <*> fieldOr d.enableReassembly "enable_reassembly" bool (·.enableReassembly)
    <*> fieldOr d.maxReassemblyAge "max_reassembly_age_seconds" natural64 (·.maxReassemblyAge))

def transmitterSettings : Schema TransmitterSettings :=
  let d : TransmitterSettings := {}
  record (TransmitterSettings.mk
    <$> fieldOr d.enableFragmentation "enable_fragmentation" bool (·.enableFragmentation)
    <*> fieldOr d.maxFragmentLength "max_fragment_chars" natural64 (·.maxFragmentLength)
    <*> fieldOr d.channel "channel" char (·.channel)
    <*> fieldOr d.sequenceId "sequence_id" (optional word8) (·.sequenceId)
    <*> fieldOr d.talker "talker" string (·.talker)
    <*> fieldOr d.ownVessel "own_vessel" bool (·.ownVessel))

end Schema

end Transponder

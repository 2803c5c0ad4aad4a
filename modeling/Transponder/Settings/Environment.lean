import Transponder.Settings.Basic

/-!
# Settings from named texts

Each setting has a name of its own. A text that is missing or makes no sense leaves the default.
-/

namespace Transponder

/-- Named texts. -/
abbrev Environment :=
  String → Option String

namespace Environment

/-- A flag in one of its spellings. -/
def flag? (text : String) : Option Bool :=
  let word := Text.lower (Text.trimmed text)
  if word ∈ ["1", "true", "yes", "on"] then some true
  else if word ∈ ["0", "false", "no", "off"] then some false
  else none

/-- A natural number up to a limit. -/
def natural? (limit : Nat) (text : String) : Option Nat :=
  Text.natural? 10 limit (Text.trim text.toList)

/-- A single character that can name a channel. -/
def channel? (text : String) : Option Char :=
  match Text.trim text.toList with
  | [c] => if isChannelName c then some c else none
  | _ => none

/-- A talker in upper case. -/
def talker? (text : String) : Option String :=
  let name := Text.upper (Text.trimmed text)
  if isTalkerName name then some name else none

/-- The largest number that a setting can have. -/
def maxNumber : Nat :=
  UInt64.size - 1

/-- The names of all settings. -/
def names : List String := [
  "AIS_VALIDATE_CHECKSUM", "AIS_ENABLE_REASSEMBLY", "AIS_MAX_REASSEMBLY_AGE_SECONDS",
  "AIS_ENABLE_FRAGMENTATION", "AIS_MAX_FRAGMENT_CHARS", "AIS_CHANNEL", "AIS_SEQUENCE_ID",
  "AIS_TALKER"]

end Environment

open Environment

def ReceiverSettings.ofEnvironment (env : Environment) : ReceiverSettings :=
  let d : ReceiverSettings := {}
  { validateChecksum := ((env "AIS_VALIDATE_CHECKSUM").bind flag?).getD d.validateChecksum
    enableReassembly := ((env "AIS_ENABLE_REASSEMBLY").bind flag?).getD d.enableReassembly
    maxReassemblyAge :=
      ((env "AIS_MAX_REASSEMBLY_AGE_SECONDS").bind (natural? maxNumber)).getD d.maxReassemblyAge }

def TransmitterSettings.ofEnvironment (env : Environment) : TransmitterSettings :=
  let d : TransmitterSettings := {}
  { enableFragmentation := ((env "AIS_ENABLE_FRAGMENTATION").bind flag?).getD d.enableFragmentation
    maxFragmentLength :=
      (((env "AIS_MAX_FRAGMENT_CHARS").bind (natural? maxNumber)).filter (0 < ·)).getD
        d.maxFragmentLength
    channel := ((env "AIS_CHANNEL").bind channel?).getD d.channel
    sequenceId :=
      (((env "AIS_SEQUENCE_ID").bind (natural? maxSequenceId)).map UInt8.ofNat).or d.sequenceId
    talker := ((env "AIS_TALKER").bind talker?).getD d.talker
    ownVessel := d.ownVessel }

end Transponder

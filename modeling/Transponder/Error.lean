import Transponder.Decimal.Style
import Transponder.Text.Ascii
import Transponder.Text.Quoted

/-!
# Errors

Why a value, a sentence, a bit sequence or a record is refused. The constructors name causes and
carry what a message needs; the wording is in the `message` functions.
-/

namespace Transponder

/-- Why a text is not a sentence address. -/
inductive AddressFault where
  | shape
  | formatter
deriving DecidableEq

def AddressFault.message : AddressFault → String
  | shape => "must be a 2-character talker followed by VDM or VDO"
  | formatter => "unsupported sentence formatter"

/-- Why a value cannot be part of a sentence or of a record. -/
inductive ValueError where
  | address (text : String) (fault : AddressFault)
  | channel (text : String)
  | payloadLength (bits bytes : Nat)
deriving DecidableEq

def ValueError.message : ValueError → String
  | address text fault => "invalid sentence address \"" ++ text ++ "\": " ++ fault.message
  | channel text => "invalid channel \"" ++ text ++ "\""
  | payloadLength bits bytes => s!"binary payload of {bytes} bytes cannot hold {bits} bits"

/-- The fields of a sentence that hold a number. -/
inductive NumericField where
  | fragmentCount
  | fragmentNumber
  | fillBits
deriving DecidableEq

def NumericField.name : NumericField → String
  | fragmentCount => "fragment count"
  | fragmentNumber => "fragment number"
  | fillBits => "fill bits"

/-- What is wrong with the form of a sentence. -/
inductive Malformation where
  | unterminatedTagBlock
  | missingStart
  | badChecksumField (text : String)
  | missingChecksum
  | value (error : ValueError)
  | notANumber (field : NumericField) (text : String)
  | fragmentOutOfRange (number count : Nat)
  | missingPayload
  | excessFillBits (count : Nat)
deriving DecidableEq

def Malformation.message : Malformation → String
  | unterminatedTagBlock => "unterminated tag block"
  | missingStart => "missing '!' or '$' start delimiter"
  | badChecksumField text => "bad checksum field " ++ Text.quoted text
  | missingChecksum => "missing checksum"
  | value error => error.message
  | notANumber field text => field.name ++ " " ++ Text.quoted text ++ " is not a number"
  | fragmentOutOfRange number count => s!"fragment {number} of {count} is out of range"
  | missingPayload => "missing payload field"
  | excessFillBits count => s!"fill bits {count} exceed 5"

/-- Why a value cannot be written into its field. -/
inductive FieldFault where
  | tooWide (value width : Nat)
  | tooWideSigned (value : Int) (width : Nat)
  | signedWidth (width : Nat)
  | outsideLimit (value : Binary64) (limit : Nat)
  | notASpeed (value : Binary64)
  | notACourse (value : Binary64)
  | notARateOfTurn (value : Binary64)
  | notADraught (value : Binary64)
  | entryCount (count : Nat) (expected : String)
  | beyondSlot (bits : Nat)
  | auxiliaryWithoutMothership (mmsi : Nat)
  | notAuxiliary (mmsi : Nat)
  | tooManyFragments (characters fragments : Nat)
  | notAChannel (channel : Char)
  | notATalker (talker : String)
  | sequenceIdOutside (id : Nat)
  | zeroFragmentLength
deriving DecidableEq

/-- The bits that a single-slot message can have. -/
def slotLength : Nat :=
  168

/-- The sentences that one message can be spread over. -/
def maxFragments : Nat :=
  9

def FieldFault.message : FieldFault → String
  | tooWide value width => s!"{value} does not fit in {width} bits"
  | tooWideSigned value width => s!"{value} does not fit in {width} signed bits"
  | signedWidth width => s!"signed field width {width} is outside 1..=64"
  | outsideLimit value limit => value.render .plain ++ s!" is outside ±{limit}°"
  | notASpeed value => value.render .plain ++ " is not a speed"
  | notACourse value => value.render .plain ++ " is not a course"
  | notARateOfTurn value => value.render .plain ++ " is not a rate of turn"
  | notADraught value => value.render .plain ++ " is not a draught"
  | entryCount count expected => s!"{count} entries, expected {expected}"
  | beyondSlot bits => s!"{bits} bits exceed one slot ({slotLength})"
  | auxiliaryWithoutMothership mmsi => s!"auxiliary craft {mmsi} must reference its mothership"
  | notAuxiliary mmsi => s!"{mmsi} is not an auxiliary craft and must carry dimensions"
  | tooManyFragments characters fragments =>
    s!"{characters} characters need {fragments} fragments, at most {maxFragments} allowed"
  | notAChannel channel => Text.quotedChar channel ++ " is not a radio channel"
  | notATalker talker => Text.quoted talker ++ " is not a two-letter talker id"
  | sequenceIdOutside id => s!"{id} is outside 0..=9"
  | zeroFragmentLength => "must be at least 1"

/-- Why no layout applies to a message of a known type. -/
inductive LayoutFault where
  | partNumber (number : Nat)
  | headerOnly
deriving DecidableEq

def LayoutFault.message : LayoutFault → String
  | partNumber number => s!"part number {number}"
  | headerOnly => "header-only record for a type with a layout"

/-- Why a sentence was not turned into a record, or a record not into sentences. -/
inductive Error where
  | checksumMismatch (carried computed : UInt8)
  | malformed (cause : Malformation)
  | incomplete (received total : Nat)
  | truncated (offset width available : Nat)
  | unencodable (field : String) (fault : FieldFault)
  | invalidPosition (position length : Nat)
  | unsupportedLayout (messageType : Nat) (fault : LayoutFault)
deriving DecidableEq

def Error.message : Error → String
  | checksumMismatch carried computed =>
    "checksum mismatch: sentence carries " ++ String.ofList (Text.hexByte true carried) ++
      ", computed " ++ String.ofList (Text.hexByte true computed)
  | malformed cause => "malformed sentence: " ++ cause.message
  | incomplete received total =>
    s!"incomplete multipart message: {received} of {total} fragments"
  | truncated offset width available =>
    s!"truncated payload: {width} bits at offset {offset} exceed {available} available"
  | unencodable field fault => "cannot encode " ++ field ++ ": " ++ fault.message
  | invalidPosition position length => s!"position {position} is beyond bit length {length}"
  | unsupportedLayout messageType fault =>
    s!"unsupported layout for message type {messageType}: " ++ fault.message

end Transponder

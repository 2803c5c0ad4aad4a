import Transponder.Layout.Part
import Transponder.Record.Telegram

/-!
# Layouts of application data, safety texts and acknowledgements
-/

namespace Transponder.Layout

def applicationId : Layout ApplicationId ApplicationId := do
  let dac ← (word16 "dac" 10).on (·.dac)
  let fid ← (word8 "fid" 6).on (·.fid)
  return { dac, fid }

/-- Type 6. -/
def addressedBinary : Layout AddressedBinary AddressedBinary := do
  let header ← header.on (·.header)
  let sequenceNumber ← (word8 "sequence_number" 2).on (·.sequenceNumber)
  let destination ← (word32 "dest_mmsi" 30).on (·.destination)
  let retransmit ← flag.on (·.retransmit)
  spare 1
  let application ← applicationId.on (·.application)
  let data ← rest.on (·.data)
  return { header, sequenceNumber, destination, retransmit, application, data }

def acknowledgement : Layout Acknowledgement Acknowledgement := do
  let mmsi ← (word32 "mmsi" 30).on (·.mmsi)
  let sequenceNumber ← (word8 "sequence_number" 2).on (·.sequenceNumber)
  return { mmsi, sequenceNumber }

/-- Types 7 and 13. -/
def acknowledge : Layout Acknowledge Acknowledge := do
  let header ← header.on (·.header)
  spare 2
  let acknowledgements ←
    (entries "acknowledgements" "1 to 4" 32 4 acknowledgement).on (·.acknowledgements)
  return { header, acknowledgements }

/-- Type 8. -/
def binaryBroadcast : Layout BinaryBroadcast BinaryBroadcast := do
  let header ← header.on (·.header)
  spare 2
  let application ← applicationId.on (·.application)
  let data ← rest.on (·.data)
  return { header, application, data }

/-- The characters of a safety text for one station. -/
def addressedSafetyLength : Nat :=
  156

/-- Type 12. -/
def addressedSafety : Layout AddressedSafety AddressedSafety := do
  let header ← header.on (·.header)
  let sequenceNumber ← (word8 "sequence_number" 2).on (·.sequenceNumber)
  let destination ← (word32 "dest_mmsi" 30).on (·.destination)
  let retransmit ← flag.on (·.retransmit)
  spare 1
  let text ← (textRun addressedSafetyLength).on (·.text)
  return { header, sequenceNumber, destination, retransmit, text }

/-- The characters of a safety text for all. -/
def safetyBroadcastLength : Nat :=
  161

/-- Type 14. -/
def safetyBroadcast : Layout SafetyBroadcast SafetyBroadcast := do
  let header ← header.on (·.header)
  spare 2
  let text ← (textRun safetyBroadcastLength).on (·.text)
  return { header, text }

/-- Type 17. -/
def dgnssBroadcast : Layout DgnssBroadcast DgnssBroadcast := do
  let header ← header.on (·.header)
  spare 2
  let longitude ← (longitude 18).on (·.longitude)
  let latitude ← (latitude 17).on (·.latitude)
  spare 5
  let data ← rest.on (·.data)
  return { header, longitude, latitude, data }

/-- Two flags and what they announce: the station and the application that data is for. -/
def recipient : Layout (Option Mmsi × Option ApplicationId) (Option Mmsi × Option ApplicationId) := do
  let addressed ← flag.on (·.1.isSome)
  let structured ← flag.on (·.2.isSome)
  let destination ← (whenPresent addressed (word32 "dest_mmsi" 30)).on (·.1)
  let application ← (whenPresent structured applicationId).on (·.2)
  return (destination, application)

/-- Type 25. -/
def singleSlotBinary : Layout SingleSlotBinary SingleSlotBinary := do
  let header ← header.on (·.header)
  let (destination, application) ← recipient.on fun m => (m.destination, m.application)
  let data ← rest.on (·.data)
  checked fun _ w =>
    if w.bits.length ≤ slotLength then .ok ()
    else .error (.unencodable "data" (.beyondSlot w.bits.length))
  return { header, destination, application, data }

/-- Type 26. -/
def multipleSlotBinary : Layout MultipleSlotBinary MultipleSlotBinary := do
  let header ← header.on (·.header)
  let (destination, application) ← recipient.on fun m => (m.destination, m.application)
  let data ← (restBefore 20).on (·.data)
  let radioStatus ← (word32 "radio_status" 20).on (·.radioStatus)
  return { header, destination, application, data, radioStatus }

end Transponder.Layout

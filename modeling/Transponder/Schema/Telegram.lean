import Transponder.Record.Telegram
import Transponder.Schema.Part

/-!
# Application data, safety texts and acknowledgements as JSON
-/

namespace Transponder.Schema

def applicationId : Schema ApplicationId :=
  record (ApplicationId.mk
    <$> field "dac" word16 (·.dac)
    <*> field "fid" word8 (·.fid))

def addressedBinary : Schema AddressedBinary :=
  record (AddressedBinary.mk
    <$> field "header" header (·.header)
    <*> field "sequence_number" word8 (·.sequenceNumber)
    <*> field "dest_mmsi" word32 (·.destination)
    <*> field "retransmit" bool (·.retransmit)
    <*> field "application_id" applicationId (·.application)
    <*> field "data" bits (·.data))

def acknowledgement : Schema Acknowledgement :=
  record (Acknowledgement.mk
    <$> field "mmsi" word32 (·.mmsi)
    <*> field "sequence_number" word8 (·.sequenceNumber))

def acknowledge : Schema Acknowledge :=
  record (Acknowledge.mk
    <$> field "header" header (·.header)
    <*> field "acknowledgements" (list acknowledgement) (·.acknowledgements))

def binaryBroadcast : Schema BinaryBroadcast :=
  record (BinaryBroadcast.mk
    <$> field "header" header (·.header)
    <*> field "application_id" applicationId (·.application)
    <*> field "data" bits (·.data))

def addressedSafety : Schema AddressedSafety :=
  record (AddressedSafety.mk
    <$> field "header" header (·.header)
    <*> field "sequence_number" word8 (·.sequenceNumber)
    <*> field "dest_mmsi" word32 (·.destination)
    <*> field "retransmit" bool (·.retransmit)
    <*> field "text" string (·.text))

def safetyBroadcast : Schema SafetyBroadcast :=
  record (SafetyBroadcast.mk
    <$> field "header" header (·.header)
    <*> field "text" string (·.text))

def dgnssBroadcast : Schema DgnssBroadcast :=
  record (DgnssBroadcast.mk
    <$> field "header" header (·.header)
    <*> field "longitude" real (·.longitude)
    <*> field "latitude" real (·.latitude)
    <*> field "data" bits (·.data))

def singleSlotBinary : Schema SingleSlotBinary :=
  record (SingleSlotBinary.mk
    <$> field "header" header (·.header)
    <*> field "dest_mmsi" (optional word32) (·.destination)
    <*> field "application_id" (optional applicationId) (·.application)
    <*> field "data" bits (·.data))

def multipleSlotBinary : Schema MultipleSlotBinary :=
  record (MultipleSlotBinary.mk
    <$> field "header" header (·.header)
    <*> field "dest_mmsi" (optional word32) (·.destination)
    <*> field "application_id" (optional applicationId) (·.application)
    <*> field "data" bits (·.data)
    <*> field "radio_status" word32 (·.radioStatus))

end Transponder.Schema

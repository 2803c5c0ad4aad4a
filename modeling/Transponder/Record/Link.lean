import Transponder.Binary64.Basic
import Transponder.Record.Header

/-!
# How the radio link is run

Questions that stations ask of each other, and what base stations order them to do.
-/

namespace Transponder

/-- A question about the time; type 10. -/
structure UtcInquiry where
  header : Header
  destination : Mmsi
deriving DecidableEq, Inhabited

/-- A message that a station is asked to send. -/
structure SlotRequest where
  messageType : UInt8 := 0
  slotOffset : UInt16 := 0
deriving DecidableEq, Inhabited

/-- The second station of an interrogation. -/
structure SecondInterrogation where
  mmsi : Mmsi
  request : SlotRequest
deriving DecidableEq

/-- A question to one or two stations; type 15. -/
structure Interrogation where
  header : Header
  mmsi : Mmsi
  firstRequest : SlotRequest
  secondRequest : Option SlotRequest
  second : Option SecondInterrogation
deriving DecidableEq, Inhabited

/-- The slots that a station shall use. -/
structure SlotAssignment where
  mmsi : Mmsi
  offset : UInt16
  increment : UInt16
deriving DecidableEq

/-- Assignments for one or two stations; type 16. -/
structure AssignmentModeCommand where
  header : Header
  assignments : List SlotAssignment
deriving DecidableEq, Inhabited

/-- Slots that a base station keeps for itself. -/
structure SlotReservation where
  offset : UInt16
  number : UInt8
  timeout : UInt8
  increment : UInt16
deriving DecidableEq

/-- Up to four reservations; type 20. -/
structure DataLinkManagement where
  header : Header
  reservations : List SlotReservation
deriving DecidableEq, Inhabited

/-- A region between its north-eastern and its south-western corner. -/
structure Region where
  neLongitude : Binary64 := 0
  neLatitude : Binary64 := 0
  swLongitude : Binary64 := 0
  swLatitude : Binary64 := 0
deriving DecidableEq, Inhabited

/-- Whom a channel command is for. -/
inductive ChannelArea where
  | addressed (first second : Mmsi)
  | region (region : Region)
deriving DecidableEq

instance : Inhabited ChannelArea :=
  ⟨.region {}⟩

/-- The channels to use; type 22. -/
structure ChannelManagement where
  header : Header := {}
  channelA : UInt16 := 0
  channelB : UInt16 := 0
  txrxMode : UInt8 := 0
  lowPower : Bool := false
  area : ChannelArea := .region {}
  bandA : Bool := false
  bandB : Bool := false
  zoneSize : UInt8 := 0
deriving DecidableEq, Inhabited

/-- A command to the stations of a region; type 23. -/
structure GroupAssignmentCommand where
  header : Header
  region : Region
  stationType : UInt8
  shipType : UInt8
  txrxMode : UInt8
  reportInterval : UInt8
  quietTime : UInt8
deriving DecidableEq, Inhabited

end Transponder

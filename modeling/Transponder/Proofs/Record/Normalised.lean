import Transponder.Layout.Message
import Transponder.Proofs.Text.SixBit

/-!
# Messages as they are read back

The wire is coarser than a record in three places. A quantity is sent as a whole number and comes
back as what that number stands for; a text comes back as the characters that its field has room
for; and a question to a second station has two requests in front of it, of which the second may be
full of zeros. `Message.normalised` says so of every message; all that it does not name is kept.
-/

namespace Transponder

/-! ## Quantities -/

namespace Quantity

/-- A quantity as the reader finds it: what its code stands for. It is not unfolded by unification,
which would compute with numbers. -/
@[irreducible] def requantised {ι : Type} (encode : Binary64 → Except FieldFault ι) (decode : ι → Binary64)
    (x : Binary64) : Binary64 :=
  match encode x with
  | .ok code => decode code
  | .error _ => x

def sentCoordinate (axis : Axis) (width : Nat) : Binary64 → Binary64 :=
  requantised (coordinateCode axis width) (coordinate width)

def sentLongitude (width : Nat) : Binary64 → Binary64 :=
  sentCoordinate .longitude width

def sentLatitude (width : Nat) : Binary64 → Binary64 :=
  sentCoordinate .latitude width

def sentSpeed : Binary64 → Binary64 :=
  requantised speedCode speed

def sentCourse : Binary64 → Binary64 :=
  requantised courseCode course

def sentRateOfTurn : Binary64 → Binary64 :=
  requantised rateOfTurnCode rateOfTurn

def sentDraught : Binary64 → Binary64 :=
  requantised draughtCode ofTenths

end Quantity

open Quantity Text

/-! ## Where a station is -/

def PositionReport.normalised (m : PositionReport) : PositionReport :=
  { m with
    rateOfTurn := sentRateOfTurn m.rateOfTurn
    speedOverGround := sentSpeed m.speedOverGround
    longitude := sentLongitude 28 m.longitude
    latitude := sentLatitude 27 m.latitude
    courseOverGround := sentCourse m.courseOverGround }

def BaseStationReport.normalised (m : BaseStationReport) : BaseStationReport :=
  { m with
    longitude := sentLongitude 28 m.longitude
    latitude := sentLatitude 27 m.latitude }

/-- The speed of an aircraft is a whole number in the record, too. -/
def SarAircraftReport.normalised (m : SarAircraftReport) : SarAircraftReport :=
  { m with
    longitude := sentLongitude 28 m.longitude
    latitude := sentLatitude 27 m.latitude
    courseOverGround := sentCourse m.courseOverGround }

def ClassBPositionReport.normalised (m : ClassBPositionReport) : ClassBPositionReport :=
  { m with
    speedOverGround := sentSpeed m.speedOverGround
    longitude := sentLongitude 28 m.longitude
    latitude := sentLatitude 27 m.latitude
    courseOverGround := sentCourse m.courseOverGround }

def ExtendedClassBReport.normalised (m : ExtendedClassBReport) : ExtendedClassBReport :=
  { m with
    speedOverGround := sentSpeed m.speedOverGround
    longitude := sentLongitude 28 m.longitude
    latitude := sentLatitude 27 m.latitude
    courseOverGround := sentCourse m.courseOverGround
    vesselName := Text.normalised 20 m.vesselName }

def LongRangeReport.normalised (m : LongRangeReport) : LongRangeReport :=
  { m with
    longitude := sentLongitude 18 m.longitude
    latitude := sentLatitude 17 m.latitude }

/-! ## Ships and marks -/

def StaticVoyageData.normalised (m : StaticVoyageData) : StaticVoyageData :=
  { m with
    callsign := Text.normalised 7 m.callsign
    vesselName := Text.normalised 20 m.vesselName
    draught := sentDraught m.draught
    destination := Text.normalised 20 m.destination }

def AidToNavigationReport.normalised (m : AidToNavigationReport) : AidToNavigationReport :=
  { m with
    name := Text.normalised 20 m.name
    longitude := sentLongitude 28 m.longitude
    latitude := sentLatitude 27 m.latitude
    nameExtension := Text.normalised 14 m.nameExtension }

def Equipment.normalised (m : Equipment) : Equipment :=
  { m with
    vendorId := Text.normalised 3 m.vendorId
    callsign := Text.normalised 7 m.callsign }

def StaticDataPart.normalised : StaticDataPart → StaticDataPart
  | a vesselName => a (Text.normalised 20 vesselName)
  | b equipment => b equipment.normalised

def StaticDataReport.normalised (m : StaticDataReport) : StaticDataReport :=
  { m with part := m.part.normalised }

/-! ## What a station sends to others -/

def AddressedSafety.normalised (m : AddressedSafety) : AddressedSafety :=
  { m with text := Text.normalised 156 m.text }

def SafetyBroadcast.normalised (m : SafetyBroadcast) : SafetyBroadcast :=
  { m with text := Text.normalised 161 m.text }

def DgnssBroadcast.normalised (m : DgnssBroadcast) : DgnssBroadcast :=
  { m with
    longitude := sentLongitude 18 m.longitude
    latitude := sentLatitude 17 m.latitude }

/-! ## How the radio link is run -/

/-- A second station is only asked behind a second request to the first. -/
def Interrogation.normalised (m : Interrogation) : Interrogation :=
  if m.second.isSome ∧ m.secondRequest = none then { m with secondRequest := some {} } else m

def Region.normalised (region : Region) : Region where
  neLongitude := sentCoordinate .longitude 18 region.neLongitude
  neLatitude := sentCoordinate .latitude 17 region.neLatitude
  swLongitude := sentCoordinate .longitude 18 region.swLongitude
  swLatitude := sentCoordinate .latitude 17 region.swLatitude

def ChannelArea.normalised : ChannelArea → ChannelArea
  | addressed first second => addressed first second
  | region corners => region corners.normalised

def ChannelManagement.normalised (m : ChannelManagement) : ChannelManagement :=
  { m with area := m.area.normalised }

def GroupAssignmentCommand.normalised (m : GroupAssignmentCommand) : GroupAssignmentCommand :=
  { m with region := m.region.normalised }

/-! ## Messages -/

/-- The message as it is read back. -/
def Message.normalised : Message → Message
  | positionReportScheduled m => positionReportScheduled m.normalised
  | positionReportAssigned m => positionReportAssigned m.normalised
  | positionReportInterrogated m => positionReportInterrogated m.normalised
  | baseStationReport m => baseStationReport m.normalised
  | staticVoyageData m => staticVoyageData m.normalised
  | addressedBinary m => addressedBinary m
  | binaryAcknowledge m => binaryAcknowledge m
  | binaryBroadcast m => binaryBroadcast m
  | sarAircraftReport m => sarAircraftReport m.normalised
  | utcInquiry m => utcInquiry m
  | utcDateResponse m => utcDateResponse m.normalised
  | addressedSafety m => addressedSafety m.normalised
  | safetyAcknowledge m => safetyAcknowledge m
  | safetyBroadcast m => safetyBroadcast m.normalised
  | interrogation m => interrogation m.normalised
  | assignmentModeCommand m => assignmentModeCommand m
  | dgnssBroadcast m => dgnssBroadcast m.normalised
  | classBPositionReport m => classBPositionReport m.normalised
  | extendedClassBReport m => extendedClassBReport m.normalised
  | dataLinkManagement m => dataLinkManagement m
  | aidToNavigationReport m => aidToNavigationReport m.normalised
  | channelManagement m => channelManagement m.normalised
  | groupAssignmentCommand m => groupAssignmentCommand m.normalised
  | staticDataReport m => staticDataReport m.normalised
  | singleSlotBinary m => singleSlotBinary m
  | multipleSlotBinary m => multipleSlotBinary m
  | longRangeReport m => longRangeReport m.normalised
  | unknown messageType header => unknown messageType header

end Transponder

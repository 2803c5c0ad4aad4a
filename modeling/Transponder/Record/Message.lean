import Transponder.Record.Link
import Transponder.Record.Motion
import Transponder.Record.Telegram

/-!
# Messages

A `Message` is a record of one of the 27 types that have a layout, or the header alone of a message
of another type. Types that share a layout have constructors of their own, so a message always knows
its type.
-/

namespace Transponder

/-- A message of any type. -/
inductive Message where
  | positionReportScheduled (m : PositionReport)
  | positionReportAssigned (m : PositionReport)
  | positionReportInterrogated (m : PositionReport)
  | baseStationReport (m : BaseStationReport)
  | staticVoyageData (m : StaticVoyageData)
  | addressedBinary (m : AddressedBinary)
  | binaryAcknowledge (m : Acknowledge)
  | binaryBroadcast (m : BinaryBroadcast)
  | sarAircraftReport (m : SarAircraftReport)
  | utcInquiry (m : UtcInquiry)
  | utcDateResponse (m : BaseStationReport)
  | addressedSafety (m : AddressedSafety)
  | safetyAcknowledge (m : Acknowledge)
  | safetyBroadcast (m : SafetyBroadcast)
  | interrogation (m : Interrogation)
  | assignmentModeCommand (m : AssignmentModeCommand)
  | dgnssBroadcast (m : DgnssBroadcast)
  | classBPositionReport (m : ClassBPositionReport)
  | extendedClassBReport (m : ExtendedClassBReport)
  | dataLinkManagement (m : DataLinkManagement)
  | aidToNavigationReport (m : AidToNavigationReport)
  | channelManagement (m : ChannelManagement)
  | groupAssignmentCommand (m : GroupAssignmentCommand)
  | staticDataReport (m : StaticDataReport)
  | singleSlotBinary (m : SingleSlotBinary)
  | multipleSlotBinary (m : MultipleSlotBinary)
  | longRangeReport (m : LongRangeReport)
  | unknown (messageType : UInt8) (header : Header)
deriving DecidableEq

namespace Message

/-- The number of the type. -/
def messageType : Message → UInt8
  | positionReportScheduled _ => 1
  | positionReportAssigned _ => 2
  | positionReportInterrogated _ => 3
  | baseStationReport _ => 4
  | staticVoyageData _ => 5
  | addressedBinary _ => 6
  | binaryAcknowledge _ => 7
  | binaryBroadcast _ => 8
  | sarAircraftReport _ => 9
  | utcInquiry _ => 10
  | utcDateResponse _ => 11
  | addressedSafety _ => 12
  | safetyAcknowledge _ => 13
  | safetyBroadcast _ => 14
  | interrogation _ => 15
  | assignmentModeCommand _ => 16
  | dgnssBroadcast _ => 17
  | classBPositionReport _ => 18
  | extendedClassBReport _ => 19
  | dataLinkManagement _ => 20
  | aidToNavigationReport _ => 21
  | channelManagement _ => 22
  | groupAssignmentCommand _ => 23
  | staticDataReport _ => 24
  | singleSlotBinary _ => 25
  | multipleSlotBinary _ => 26
  | longRangeReport _ => 27
  | unknown messageType _ => messageType

/-- The largest number of a type with a layout. -/
def maxKnownType : Nat :=
  27

/-- Whether messages of a type have a layout. -/
def isKnownType (messageType : Nat) : Bool :=
  1 ≤ messageType && messageType ≤ maxKnownType

def header : Message → Header
  | positionReportScheduled m | positionReportAssigned m | positionReportInterrogated m => m.header
  | baseStationReport m | utcDateResponse m => m.header
  | staticVoyageData m => m.header
  | addressedBinary m => m.header
  | binaryAcknowledge m | safetyAcknowledge m => m.header
  | binaryBroadcast m => m.header
  | sarAircraftReport m => m.header
  | utcInquiry m => m.header
  | addressedSafety m => m.header
  | safetyBroadcast m => m.header
  | interrogation m => m.header
  | assignmentModeCommand m => m.header
  | dgnssBroadcast m => m.header
  | classBPositionReport m => m.header
  | extendedClassBReport m => m.header
  | dataLinkManagement m => m.header
  | aidToNavigationReport m => m.header
  | channelManagement m => m.header
  | groupAssignmentCommand m => m.header
  | staticDataReport m => m.header
  | singleSlotBinary m => m.header
  | multipleSlotBinary m => m.header
  | longRangeReport m => m.header
  | unknown _ header => header

/-- The station that the message concerns. -/
def mmsi (m : Message) : Mmsi :=
  m.header.mmsi

/-- The latitude and the longitude of a message that reports a position. -/
def position? : Message → Option (Binary64 × Binary64)
  | positionReportScheduled m | positionReportAssigned m | positionReportInterrogated m =>
    some (m.latitude, m.longitude)
  | baseStationReport m | utcDateResponse m => some (m.latitude, m.longitude)
  | sarAircraftReport m => some (m.latitude, m.longitude)
  | dgnssBroadcast m => some (m.latitude, m.longitude)
  | classBPositionReport m => some (m.latitude, m.longitude)
  | extendedClassBReport m => some (m.latitude, m.longitude)
  | aidToNavigationReport m => some (m.latitude, m.longitude)
  | longRangeReport m => some (m.latitude, m.longitude)
  | _ => none

/-- The name in a message that carries one; of an aid to navigation, the name without its
extension. -/
def name? : Message → Option String
  | staticVoyageData m => some m.vesselName
  | extendedClassBReport m => some m.vesselName
  | aidToNavigationReport m => some m.name
  | staticDataReport m =>
    match m.part with
    | .a vesselName => some vesselName
    | .b _ => none
  | _ => none

end Message

end Transponder

import Transponder.Record.Message
import Transponder.Json.Parser
import Transponder.Json.Printer
import Transponder.Schema.Link
import Transponder.Schema.Motion
import Transponder.Schema.Telegram
import Transponder.Schema.Vessel

/-!
# Messages as JSON

A message is an object with the name of its type beside its record.
-/

namespace Transponder

/-- The header of a message of a type without a layout, with the number of the type. -/
def Schema.unknownMessage : Schema (UInt8 × Header) :=
  .object (Prod.mk
    <$> field "message_type" word8 (·.1)
    <*> field "header" header (·.2))

namespace Message

/-- The record of a message of the type with the given name, read in the given way. -/
def ofContent? (typeName : String) (r : Reading) (j : Json) : Option Message :=
  match typeName with
  | "PositionReportScheduled" => (Schema.positionReport.readAs r j).map .positionReportScheduled
  | "PositionReportAssigned" => (Schema.positionReport.readAs r j).map .positionReportAssigned
  | "PositionReportInterrogated" =>
    (Schema.positionReport.readAs r j).map .positionReportInterrogated
  | "BaseStationReport" => (Schema.baseStationReport.readAs r j).map .baseStationReport
  | "StaticVoyageData" => (Schema.staticVoyageData.readAs r j).map .staticVoyageData
  | "AddressedBinary" => (Schema.addressedBinary.readAs r j).map .addressedBinary
  | "BinaryAcknowledge" => (Schema.acknowledge.readAs r j).map .binaryAcknowledge
  | "BinaryBroadcast" => (Schema.binaryBroadcast.readAs r j).map .binaryBroadcast
  | "SarAircraftReport" => (Schema.sarAircraftReport.readAs r j).map .sarAircraftReport
  | "UtcInquiry" => (Schema.utcInquiry.readAs r j).map .utcInquiry
  | "UtcDateResponse" => (Schema.baseStationReport.readAs r j).map .utcDateResponse
  | "AddressedSafety" => (Schema.addressedSafety.readAs r j).map .addressedSafety
  | "SafetyAcknowledge" => (Schema.acknowledge.readAs r j).map .safetyAcknowledge
  | "SafetyBroadcast" => (Schema.safetyBroadcast.readAs r j).map .safetyBroadcast
  | "Interrogation" => (Schema.interrogation.readAs r j).map .interrogation
  | "AssignmentModeCommand" => (Schema.assignmentModeCommand.readAs r j).map .assignmentModeCommand
  | "DgnssBroadcast" => (Schema.dgnssBroadcast.readAs r j).map .dgnssBroadcast
  | "ClassBPositionReport" => (Schema.classBPositionReport.readAs r j).map .classBPositionReport
  | "ExtendedClassBReport" => (Schema.extendedClassBReport.readAs r j).map .extendedClassBReport
  | "DataLinkManagement" => (Schema.dataLinkManagement.readAs r j).map .dataLinkManagement
  | "AidToNavigationReport" => (Schema.aidToNavigationReport.readAs r j).map .aidToNavigationReport
  | "ChannelManagement" => (Schema.channelManagement.readAs r j).map .channelManagement
  | "GroupAssignmentCommand" =>
    (Schema.groupAssignmentCommand.readAs r j).map .groupAssignmentCommand
  | "StaticDataReport" => (Schema.staticDataReport.readAs r j).map .staticDataReport
  | "SingleSlotBinary" => (Schema.singleSlotBinary.readAs r j).map .singleSlotBinary
  | "MultipleSlotBinary" => (Schema.multipleSlotBinary.readAs r j).map .multipleSlotBinary
  | "LongRangeReport" => (Schema.longRangeReport.readAs r j).map .longRangeReport
  | "Unknown" => (Schema.unknownMessage.readAs r j).map fun (t, h) => .unknown t h
  | _ => none

/-- The name of the type, and the record. -/
def content : Message → String × Json
  | positionReportScheduled m => ("PositionReportScheduled", Schema.positionReport.write m)
  | positionReportAssigned m => ("PositionReportAssigned", Schema.positionReport.write m)
  | positionReportInterrogated m => ("PositionReportInterrogated", Schema.positionReport.write m)
  | baseStationReport m => ("BaseStationReport", Schema.baseStationReport.write m)
  | staticVoyageData m => ("StaticVoyageData", Schema.staticVoyageData.write m)
  | addressedBinary m => ("AddressedBinary", Schema.addressedBinary.write m)
  | binaryAcknowledge m => ("BinaryAcknowledge", Schema.acknowledge.write m)
  | binaryBroadcast m => ("BinaryBroadcast", Schema.binaryBroadcast.write m)
  | sarAircraftReport m => ("SarAircraftReport", Schema.sarAircraftReport.write m)
  | utcInquiry m => ("UtcInquiry", Schema.utcInquiry.write m)
  | utcDateResponse m => ("UtcDateResponse", Schema.baseStationReport.write m)
  | addressedSafety m => ("AddressedSafety", Schema.addressedSafety.write m)
  | safetyAcknowledge m => ("SafetyAcknowledge", Schema.acknowledge.write m)
  | safetyBroadcast m => ("SafetyBroadcast", Schema.safetyBroadcast.write m)
  | interrogation m => ("Interrogation", Schema.interrogation.write m)
  | assignmentModeCommand m => ("AssignmentModeCommand", Schema.assignmentModeCommand.write m)
  | dgnssBroadcast m => ("DgnssBroadcast", Schema.dgnssBroadcast.write m)
  | classBPositionReport m => ("ClassBPositionReport", Schema.classBPositionReport.write m)
  | extendedClassBReport m => ("ExtendedClassBReport", Schema.extendedClassBReport.write m)
  | dataLinkManagement m => ("DataLinkManagement", Schema.dataLinkManagement.write m)
  | aidToNavigationReport m => ("AidToNavigationReport", Schema.aidToNavigationReport.write m)
  | channelManagement m => ("ChannelManagement", Schema.channelManagement.write m)
  | groupAssignmentCommand m => ("GroupAssignmentCommand", Schema.groupAssignmentCommand.write m)
  | staticDataReport m => ("StaticDataReport", Schema.staticDataReport.write m)
  | singleSlotBinary m => ("SingleSlotBinary", Schema.singleSlotBinary.write m)
  | multipleSlotBinary m => ("MultipleSlotBinary", Schema.multipleSlotBinary.write m)
  | longRangeReport m => ("LongRangeReport", Schema.longRangeReport.write m)
  | unknown t h => ("Unknown", Schema.unknownMessage.write (t, h))

/-- The message that a JSON value describes. It is never kept, so its type is never a number. -/
def ofJson? (j : Json) : Option Message := do
  let (typeName, r, record) ← j.labelled? "type" "data" [] .direct
  ofContent? typeName r record

/-- The JSON value that describes a message. -/
def toJson (m : Message) : Json :=
  .object [("type", .string m.content.1), ("data", m.content.2)]

/-- The message that a JSON text describes. -/
def ofText? (text : String) : Option Message :=
  (Json.parse? text).bind ofJson?

end Message

end Transponder

import Transponder.Layout.Link
import Transponder.Layout.Motion
import Transponder.Layout.Telegram
import Transponder.Layout.Vessel
import Transponder.Record.Message

/-!
# The layout of messages

A message starts with the number of its type, which says what follows. Types without a layout have
the header alone. `decode` reads a whole message and `encode` writes one; `writeBody` also answers
the message as it will be read back.
-/

namespace Transponder.Message

/-- The width of the type, the repeat indicator and the station. -/
def headerWidth : Nat :=
  38

/-- The width of the type. -/
def typeWidth : Nat :=
  6

/-- The type at the start of a sequence of bits. -/
def peekType (bits : Bits) : Except Error Nat :=
  bits.uintAt 0 typeWidth

/-- Reads what follows the number of the type. -/
def readBody : Nat → Reader → Except Error (Message × Reader)
  | 1 => (Layout.positionReport.mapped positionReportScheduled).read
  | 2 => (Layout.positionReport.mapped positionReportAssigned).read
  | 3 => (Layout.positionReport.mapped positionReportInterrogated).read
  | 4 => (Layout.baseStationReport.mapped baseStationReport).read
  | 5 => (Layout.staticVoyageData.mapped staticVoyageData).read
  | 6 => (Layout.addressedBinary.mapped addressedBinary).read
  | 7 => (Layout.acknowledge.mapped binaryAcknowledge).read
  | 8 => (Layout.binaryBroadcast.mapped binaryBroadcast).read
  | 9 => (Layout.sarAircraftReport.mapped sarAircraftReport).read
  | 10 => (Layout.utcInquiry.mapped utcInquiry).read
  | 11 => (Layout.baseStationReport.mapped utcDateResponse).read
  | 12 => (Layout.addressedSafety.mapped addressedSafety).read
  | 13 => (Layout.acknowledge.mapped safetyAcknowledge).read
  | 14 => (Layout.safetyBroadcast.mapped safetyBroadcast).read
  | 15 => (Layout.interrogation.mapped interrogation).read
  | 16 => (Layout.assignmentModeCommand.mapped assignmentModeCommand).read
  | 17 => (Layout.dgnssBroadcast.mapped dgnssBroadcast).read
  | 18 => (Layout.classBPositionReport.mapped classBPositionReport).read
  | 19 => (Layout.extendedClassBReport.mapped extendedClassBReport).read
  | 20 => (Layout.dataLinkManagement.mapped dataLinkManagement).read
  | 21 => (Layout.aidToNavigationReport.mapped aidToNavigationReport).read
  | 22 => (Layout.channelManagement.mapped channelManagement).read
  | 23 => (Layout.groupAssignmentCommand.mapped groupAssignmentCommand).read
  | 24 => (Layout.staticDataReport.mapped staticDataReport).read
  | 25 => (Layout.singleSlotBinary.mapped singleSlotBinary).read
  | 26 => (Layout.multipleSlotBinary.mapped multipleSlotBinary).read
  | 27 => (Layout.longRangeReport.mapped longRangeReport).read
  | messageType => (Layout.header.mapped (unknown (UInt8.ofNat messageType))).read

/-- Writes what follows the number of the type, and answers the message as it will be read back. -/
def writeBody : Message → Writer → Except Error (Message × Writer)
  | positionReportScheduled m => (Layout.positionReport.mapped positionReportScheduled).write m
  | positionReportAssigned m => (Layout.positionReport.mapped positionReportAssigned).write m
  | positionReportInterrogated m => (Layout.positionReport.mapped positionReportInterrogated).write m
  | baseStationReport m => (Layout.baseStationReport.mapped baseStationReport).write m
  | staticVoyageData m => (Layout.staticVoyageData.mapped staticVoyageData).write m
  | addressedBinary m => (Layout.addressedBinary.mapped addressedBinary).write m
  | binaryAcknowledge m => (Layout.acknowledge.mapped binaryAcknowledge).write m
  | binaryBroadcast m => (Layout.binaryBroadcast.mapped binaryBroadcast).write m
  | sarAircraftReport m => (Layout.sarAircraftReport.mapped sarAircraftReport).write m
  | utcInquiry m => (Layout.utcInquiry.mapped utcInquiry).write m
  | utcDateResponse m => (Layout.baseStationReport.mapped utcDateResponse).write m
  | addressedSafety m => (Layout.addressedSafety.mapped addressedSafety).write m
  | safetyAcknowledge m => (Layout.acknowledge.mapped safetyAcknowledge).write m
  | safetyBroadcast m => (Layout.safetyBroadcast.mapped safetyBroadcast).write m
  | interrogation m => (Layout.interrogation.mapped interrogation).write m
  | assignmentModeCommand m => (Layout.assignmentModeCommand.mapped assignmentModeCommand).write m
  | dgnssBroadcast m => (Layout.dgnssBroadcast.mapped dgnssBroadcast).write m
  | classBPositionReport m => (Layout.classBPositionReport.mapped classBPositionReport).write m
  | extendedClassBReport m => (Layout.extendedClassBReport.mapped extendedClassBReport).write m
  | dataLinkManagement m => (Layout.dataLinkManagement.mapped dataLinkManagement).write m
  | aidToNavigationReport m => (Layout.aidToNavigationReport.mapped aidToNavigationReport).write m
  | channelManagement m => (Layout.channelManagement.mapped channelManagement).write m
  | groupAssignmentCommand m => (Layout.groupAssignmentCommand.mapped groupAssignmentCommand).write m
  | staticDataReport m => (Layout.staticDataReport.mapped staticDataReport).write m
  | singleSlotBinary m => (Layout.singleSlotBinary.mapped singleSlotBinary).write m
  | multipleSlotBinary m => (Layout.multipleSlotBinary.mapped multipleSlotBinary).write m
  | longRangeReport m => (Layout.longRangeReport.mapped longRangeReport).write m
  | unknown messageType header => fun w => do
    let (header, w) ← Layout.header.write header w
    if isKnownType messageType.toNat then
      .error (.unsupportedLayout messageType.toNat .headerOnly)
    else return (unknown messageType header, w)

/-- The message that a sequence of bits holds; bits after its layout are passed over. -/
def decode (bits : Bits) : Except Error Message := do
  let (messageType, r) ← Layout.answered ((Reader.start bits).uint typeWidth)
  let (message, _) ← readBody messageType r
  return message

/-- The bits of a message. -/
def encode (message : Message) : Except Error Bits := do
  let (_, w) ← Layout.answered
    (Writer.empty.uint "message_type" message.messageType.toNat typeWidth)
  let (_, w) ← message.writeBody w
  return w.bits

end Transponder.Message

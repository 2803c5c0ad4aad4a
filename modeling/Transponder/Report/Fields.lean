import Transponder.Record.Message
import Transponder.Report.Cell

/-!
# Fields of reports

The fields of a report are put in one after the other, each with its name. A record may lack some of
the fields of its type; these are put in as well, with nothing in them, so that all records of a
type have the same fields. Their names are those of a record of the type with nothing in it
(`template`).
-/

namespace Transponder

namespace Report

/-- The names and values that are in a report so far. -/
structure FieldList where
  list : List (String × Cell) := []

namespace FieldList

variable {α : Type}

/-- Puts a value in. -/
def push (f : FieldList) (name : String) (cell : Cell) : FieldList :=
  ⟨f.list ++ [(name, cell)]⟩

def uint (f : FieldList) (name : String) (n : Nat) : FieldList :=
  f.push name (.natural n)

/-- Puts a number in that may be missing. -/
def optUint (f : FieldList) (name : String) : Option Nat → FieldList
  | some n => f.uint name n
  | none => f.push name .empty

def flag (f : FieldList) (name : String) (b : Bool) : FieldList :=
  f.push name (.flag b)

/-- Puts a latitude or a longitude in. -/
def coord (f : FieldList) (name : String) (x : Binary64) : FieldList :=
  f.push name (.coordinate x)

/-- Puts a latitude or a longitude in that may be missing. -/
def optCoord (f : FieldList) (name : String) : Option Binary64 → FieldList
  | some x => f.coord name x
  | none => f.push name .empty

def decimal (f : FieldList) (name : String) (x : Binary64) : FieldList :=
  f.push name (.decimal x)

def text (f : FieldList) (name : String) (s : String) : FieldList :=
  f.push name (.text s)

/-- Puts a value in that has a name of its own. -/
def label [Coded α] (f : FieldList) (name : String) (a : α) : FieldList :=
  f.push name (.label (Coded.label a))

def position (f : FieldList) (longitude latitude : Binary64) : FieldList :=
  f.coord "longitude" longitude |>.coord "latitude" latitude

def dimensions (f : FieldList) (d : Option Dimensions) : FieldList :=
  f.optUint "toBow" (d.map (·.toBow.toNat))
    |>.optUint "toStern" (d.map (·.toStern.toNat))
    |>.optUint "toPort" (d.map (·.toPort.toNat))
    |>.optUint "toStarboard" (d.map (·.toStarboard.toNat))

def application (f : FieldList) (id : Option ApplicationId) : FieldList :=
  f.optUint "dac" (id.map (·.dac.toNat))
    |>.optUint "fid" (id.map (·.fid.toNat))

def payload (f : FieldList) (data : Bits) : FieldList :=
  f.uint "dataBits" data.length
    |>.push "data" (.binary data.base64)

/-- Puts in the entries of a list, of which there can be as many as a table has rows of names. -/
def entries {ν : Type} (f : FieldList) (table : List ν) (as : List α)
    (put : FieldList → ν → Option α → FieldList) : FieldList :=
  table.zipIdx.foldl (fun f (names, i) => put f names as[i]?) f

end FieldList

/-- The names of the fields of acknowledgements. -/
def acknowledgementNames : List (String × String) := [
  ("mmsi1", "sequenceNumber1"),
  ("mmsi2", "sequenceNumber2"),
  ("mmsi3", "sequenceNumber3"),
  ("mmsi4", "sequenceNumber4")]

/-- The names of the fields of slot assignments. -/
def assignmentNames : List (String × String × String) := [
  ("mmsi1", "offset1", "increment1"),
  ("mmsi2", "offset2", "increment2")]

/-- The names of the fields of slot reservations. -/
def reservationNames : List (String × String × String × String) := [
  ("offset1", "number1", "timeout1", "increment1"),
  ("offset2", "number2", "timeout2", "increment2"),
  ("offset3", "number3", "timeout3", "increment3"),
  ("offset4", "number4", "timeout4", "increment4")]

/-- Puts in one part of the static data of a class B ship. -/
def staticDataFields (f : FieldList) (m : StaticDataReport) : FieldList :=
  let f := f.uint "partNumber" m.part.number
  match m.part with
  | .a vesselName =>
    f.text "vesselName" vesselName
      |>.push "shipType" .empty
      |>.push "vendorId" .empty
      |>.push "model" .empty
      |>.push "serial" .empty
      |>.push "callsign" .empty
      |>.dimensions none
      |>.push "mothershipMmsi" .empty
  | .b equipment =>
    let (size, mothership) : Option Dimensions × Option Mmsi :=
      match equipment.reference with
      | .dimensions size => (some size, none)
      | .mothership mmsi => (none, some mmsi)
    f.push "vesselName" .empty
      |>.uint "shipType" equipment.shipType.toNat
      |>.text "vendorId" equipment.vendorId
      |>.uint "model" equipment.model.toNat
      |>.uint "serial" equipment.serial.toNat
      |>.text "callsign" equipment.callsign
      |>.dimensions size
      |>.optUint "mothershipMmsi" (mothership.map (·.toNat))

end Report

namespace Message

open Report (FieldList)

/-- The names and values of the fields of the type. -/
def fields (m : Message) : List (String × Cell) :=
  let f : FieldList := {}
  FieldList.list <| match m with
  | positionReportScheduled m | positionReportAssigned m | positionReportInterrogated m =>
    f.label "navStatus" m.status
      |>.decimal "rateOfTurn" m.rateOfTurn
      |>.decimal "speedOverGround" m.speedOverGround
      |>.flag "positionAccuracy" m.positionAccuracy
      |>.position m.longitude m.latitude
      |>.decimal "courseOverGround" m.courseOverGround
      |>.uint "trueHeading" m.trueHeading.toNat
      |>.uint "second" m.second.toNat
      |>.label "maneuver" m.maneuver
      |>.flag "raim" m.raim
      |>.uint "radioStatus" m.radioStatus.toNat
  | baseStationReport m | utcDateResponse m =>
    f.uint "year" m.year.toNat
      |>.uint "month" m.month.toNat
      |>.uint "day" m.day.toNat
      |>.uint "hour" m.hour.toNat
      |>.uint "minute" m.minute.toNat
      |>.uint "second" m.second.toNat
      |>.flag "positionAccuracy" m.positionAccuracy
      |>.position m.longitude m.latitude
      |>.label "epfd" m.device
      |>.flag "raim" m.raim
      |>.uint "radioStatus" m.radioStatus.toNat
  | staticVoyageData m =>
    f.uint "aisVersion" m.aisVersion.toNat
      |>.uint "imo" m.imo.toNat
      |>.text "callsign" m.callsign
      |>.text "vesselName" m.vesselName
      |>.uint "shipType" m.shipType.toNat
      |>.dimensions (some m.dimensions)
      |>.label "epfd" m.device
      |>.uint "etaMonth" m.eta.month.toNat
      |>.uint "etaDay" m.eta.day.toNat
      |>.uint "etaHour" m.eta.hour.toNat
      |>.uint "etaMinute" m.eta.minute.toNat
      |>.decimal "draught" m.draught
      |>.text "destination" m.destination
      |>.flag "dte" m.dte
  | addressedBinary m =>
    f.uint "sequenceNumber" m.sequenceNumber.toNat
      |>.uint "destMmsi" m.destination.toNat
      |>.flag "retransmit" m.retransmit
      |>.application (some m.application)
      |>.payload m.data
  | binaryAcknowledge m | safetyAcknowledge m =>
    f.entries Report.acknowledgementNames m.acknowledgements fun f (mmsi, sequenceNumber) a =>
      f.optUint mmsi (a.map (·.mmsi.toNat))
        |>.optUint sequenceNumber (a.map (·.sequenceNumber.toNat))
  | binaryBroadcast m =>
    f.application (some m.application)
      |>.payload m.data
  | sarAircraftReport m =>
    f.uint "altitude" m.altitude.toNat
      |>.uint "speedOverGround" m.speedOverGround.toNat
      |>.flag "positionAccuracy" m.positionAccuracy
      |>.position m.longitude m.latitude
      |>.decimal "courseOverGround" m.courseOverGround
      |>.uint "second" m.second.toNat
      |>.uint "regional" m.regional.toNat
      |>.flag "dte" m.dte
      |>.flag "assigned" m.assigned
      |>.flag "raim" m.raim
      |>.uint "radioStatus" m.radioStatus.toNat
  | utcInquiry m => f.uint "destMmsi" m.destination.toNat
  | addressedSafety m =>
    f.uint "sequenceNumber" m.sequenceNumber.toNat
      |>.uint "destMmsi" m.destination.toNat
      |>.flag "retransmit" m.retransmit
      |>.text "text" m.text
  | safetyBroadcast m => f.text "text" m.text
  | interrogation m =>
    f.uint "mmsi1" m.mmsi.toNat
      |>.uint "messageType1_1" m.firstRequest.messageType.toNat
      |>.uint "slotOffset1_1" m.firstRequest.slotOffset.toNat
      |>.optUint "messageType1_2" (m.secondRequest.map (·.messageType.toNat))
      |>.optUint "slotOffset1_2" (m.secondRequest.map (·.slotOffset.toNat))
      |>.optUint "mmsi2" (m.second.map (·.mmsi.toNat))
      |>.optUint "messageType2_1" (m.second.map (·.request.messageType.toNat))
      |>.optUint "slotOffset2_1" (m.second.map (·.request.slotOffset.toNat))
  | assignmentModeCommand m =>
    f.entries Report.assignmentNames m.assignments fun f (mmsi, offset, increment) a =>
      f.optUint mmsi (a.map (·.mmsi.toNat))
        |>.optUint offset (a.map (·.offset.toNat))
        |>.optUint increment (a.map (·.increment.toNat))
  | dgnssBroadcast m =>
    f.position m.longitude m.latitude
      |>.payload m.data
  | classBPositionReport m =>
    f.uint "reserved" m.reserved.toNat
      |>.decimal "speedOverGround" m.speedOverGround
      |>.flag "positionAccuracy" m.positionAccuracy
      |>.position m.longitude m.latitude
      |>.decimal "courseOverGround" m.courseOverGround
      |>.uint "trueHeading" m.trueHeading.toNat
      |>.uint "second" m.second.toNat
      |>.uint "regional" m.regional.toNat
      |>.flag "csUnit" m.csUnit
      |>.flag "display" m.display
      |>.flag "dsc" m.dsc
      |>.flag "band" m.band
      |>.flag "msg22" m.msg22
      |>.flag "assigned" m.assigned
      |>.flag "raim" m.raim
      |>.uint "radioStatus" m.radioStatus.toNat
  | extendedClassBReport m =>
    f.uint "reserved" m.reserved.toNat
      |>.decimal "speedOverGround" m.speedOverGround
      |>.flag "positionAccuracy" m.positionAccuracy
      |>.position m.longitude m.latitude
      |>.decimal "courseOverGround" m.courseOverGround
      |>.uint "trueHeading" m.trueHeading.toNat
      |>.uint "second" m.second.toNat
      |>.uint "regional" m.regional.toNat
      |>.text "vesselName" m.vesselName
      |>.uint "shipType" m.shipType.toNat
      |>.dimensions (some m.dimensions)
      |>.label "epfd" m.device
      |>.flag "raim" m.raim
      |>.flag "dte" m.dte
      |>.flag "assigned" m.assigned
  | dataLinkManagement m =>
    f.entries Report.reservationNames m.reservations fun f (offset, number, timeout, increment) r =>
      f.optUint offset (r.map (·.offset.toNat))
        |>.optUint number (r.map (·.number.toNat))
        |>.optUint timeout (r.map (·.timeout.toNat))
        |>.optUint increment (r.map (·.increment.toNat))
  | aidToNavigationReport m =>
    f.uint "aidType" m.aidType.toNat
      |>.text "name" m.fullName
      |>.flag "positionAccuracy" m.positionAccuracy
      |>.position m.longitude m.latitude
      |>.dimensions (some m.dimensions)
      |>.label "epfd" m.device
      |>.uint "second" m.second.toNat
      |>.flag "offPosition" m.offPosition
      |>.uint "regional" m.regional.toNat
      |>.flag "raim" m.raim
      |>.flag "virtualAid" m.virtualAid
      |>.flag "assigned" m.assigned
  | channelManagement m =>
    let (dest, region) : Option (Mmsi × Mmsi) × Option Region :=
      match m.area with
      | .addressed first second => (some (first, second), none)
      | .region corners => (none, some corners)
    f.uint "channelA" m.channelA.toNat
      |>.uint "channelB" m.channelB.toNat
      |>.uint "txrxMode" m.txrxMode.toNat
      |>.flag "lowPower" m.lowPower
      |>.flag "addressed" dest.isSome
      |>.optUint "destMmsi1" (dest.map (·.1.toNat))
      |>.optUint "destMmsi2" (dest.map (·.2.toNat))
      |>.optCoord "neLongitude" (region.map (·.neLongitude))
      |>.optCoord "neLatitude" (region.map (·.neLatitude))
      |>.optCoord "swLongitude" (region.map (·.swLongitude))
      |>.optCoord "swLatitude" (region.map (·.swLatitude))
      |>.flag "bandA" m.bandA
      |>.flag "bandB" m.bandB
      |>.uint "zoneSize" m.zoneSize.toNat
  | groupAssignmentCommand m =>
    f.coord "neLongitude" m.region.neLongitude
      |>.coord "neLatitude" m.region.neLatitude
      |>.coord "swLongitude" m.region.swLongitude
      |>.coord "swLatitude" m.region.swLatitude
      |>.uint "stationType" m.stationType.toNat
      |>.uint "shipType" m.shipType.toNat
      |>.uint "txrxMode" m.txrxMode.toNat
      |>.uint "reportInterval" m.reportInterval.toNat
      |>.uint "quietTime" m.quietTime.toNat
  | staticDataReport m => Report.staticDataFields f m
  | singleSlotBinary m =>
    f.flag "addressed" m.destination.isSome
      |>.flag "structured" m.application.isSome
      |>.optUint "destMmsi" (m.destination.map (·.toNat))
      |>.application m.application
      |>.payload m.data
  | multipleSlotBinary m =>
    f.flag "addressed" m.destination.isSome
      |>.flag "structured" m.application.isSome
      |>.optUint "destMmsi" (m.destination.map (·.toNat))
      |>.application m.application
      |>.payload m.data
      |>.uint "radioStatus" m.radioStatus.toNat
  | longRangeReport m =>
    f.flag "positionAccuracy" m.positionAccuracy
      |>.flag "raim" m.raim
      |>.label "navStatus" m.status
      |>.position m.longitude m.latitude
      |>.uint "speedOverGround" m.speedOverGround.toNat
      |>.uint "courseOverGround" m.courseOverGround.toNat
      |>.flag "positionLatency" m.positionLatency
  | unknown _ _ => f

end Message

/-- A record of a type with nothing in it, for the names of its fields. -/
def Report.template (messageType : UInt8) : Message :=
  match messageType.toNat with
  | 1 => .positionReportScheduled default
  | 2 => .positionReportAssigned default
  | 3 => .positionReportInterrogated default
  | 4 => .baseStationReport default
  | 5 => .staticVoyageData default
  | 6 => .addressedBinary default
  | 7 => .binaryAcknowledge default
  | 8 => .binaryBroadcast default
  | 9 => .sarAircraftReport default
  | 10 => .utcInquiry default
  | 11 => .utcDateResponse default
  | 12 => .addressedSafety default
  | 13 => .safetyAcknowledge default
  | 14 => .safetyBroadcast default
  | 15 => .interrogation default
  | 16 => .assignmentModeCommand default
  | 17 => .dgnssBroadcast default
  | 18 => .classBPositionReport default
  | 19 => .extendedClassBReport default
  | 20 => .dataLinkManagement default
  | 21 => .aidToNavigationReport default
  | 22 => .channelManagement default
  | 23 => .groupAssignmentCommand default
  | 24 => .staticDataReport { header := {}, part := .a "" }
  | 25 => .singleSlotBinary default
  | 26 => .multipleSlotBinary default
  | 27 => .longRangeReport default
  | _ => .unknown messageType {}

end Transponder

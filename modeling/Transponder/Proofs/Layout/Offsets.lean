import Transponder.Bits.Reader
import Transponder.Record.Message

/-!
# The published table of offsets

Where every field of every type of message is found, by the absolute reads of `Bits`: each entry is
an offset from the start of the message and a width. Spare bits are not mentioned. `message` reads a
whole message in this way; the layouts, which walk along the bits, are compared with it.
-/

namespace Transponder

namespace Bits

/-- A natural number in a word of 8 bits. -/
def word8At (b : Bits) (offset width : Nat) : Except Error UInt8 := do
  return UInt8.ofNat (← b.uintAt offset width)

def word16At (b : Bits) (offset width : Nat) : Except Error UInt16 := do
  return UInt16.ofNat (← b.uintAt offset width)

def word32At (b : Bits) (offset width : Nat) : Except Error UInt32 := do
  return UInt32.ofNat (← b.uintAt offset width)

/-- A value whose codes have names. -/
def codedAt {α : Type} [Coded α] (b : Bits) (offset width : Nat) : Except Error α := do
  return Coded.ofCode (← b.uintAt offset width)

/-- A number of tenths. -/
def tenthsAt (b : Bits) (offset width : Nat) : Except Error Binary64 := do
  return Quantity.ofTenths (← b.uintAt offset width)

/-- What is there in a message of at least `least` bits. -/
def whenLength {α : Type} (b : Bits) (least : Nat) (x : Except Error α) :
    Except Error (Option α) :=
  if least ≤ b.length then do return some (← x) else return none

/-- What is there if a flag is set. -/
def whenSet {α : Type} (present : Bool) (x : Except Error α) : Except Error (Option α) :=
  if present then do return some (← x) else return none

end Bits

namespace Offsets

def header (b : Bits) : Except Error Header := do
  return {
    repeatIndicator := ← b.word8At 6 2
    mmsi := ← b.word32At 8 30 }

/-- The size of a ship, from `offset` on. -/
def dimensions (b : Bits) (offset : Nat) : Except Error Dimensions := do
  return {
    toBow := ← b.word16At offset 9
    toStern := ← b.word16At (offset + 9) 9
    toPort := ← b.word8At (offset + 18) 6
    toStarboard := ← b.word8At (offset + 24) 6 }

/-! ## Where a station is -/

/-- Types 1, 2 and 3. -/
def positionReport (b : Bits) : Except Error PositionReport := do
  return {
    header := ← header b
    status := ← b.codedAt 38 4
    rateOfTurn := ← b.rateOfTurnAt 42
    speedOverGround := ← b.speedAt 50
    positionAccuracy := ← b.flagAt 60
    longitude := ← b.coordinateAt 61 28
    latitude := ← b.coordinateAt 89 27
    courseOverGround := ← b.courseAt 116
    trueHeading := ← b.word16At 128 9
    second := ← b.word8At 137 6
    maneuver := ← b.codedAt 143 2
    raim := ← b.flagAt 148
    radioStatus := ← b.word32At 149 19 }

/-- Types 4 and 11. -/
def baseStationReport (b : Bits) : Except Error BaseStationReport := do
  return {
    header := ← header b
    year := ← b.word16At 38 14
    month := ← b.word8At 52 4
    day := ← b.word8At 56 5
    hour := ← b.word8At 61 5
    minute := ← b.word8At 66 6
    second := ← b.word8At 72 6
    positionAccuracy := ← b.flagAt 78
    longitude := ← b.coordinateAt 79 28
    latitude := ← b.coordinateAt 107 27
    device := ← b.codedAt 134 4
    raim := ← b.flagAt 148
    radioStatus := ← b.word32At 149 19 }

/-- Type 9. -/
def sarAircraftReport (b : Bits) : Except Error SarAircraftReport := do
  return {
    header := ← header b
    altitude := ← b.word16At 38 12
    speedOverGround := ← b.word16At 50 10
    positionAccuracy := ← b.flagAt 60
    longitude := ← b.coordinateAt 61 28
    latitude := ← b.coordinateAt 89 27
    courseOverGround := ← b.courseAt 116
    second := ← b.word8At 128 6
    regional := ← b.word8At 134 8
    dte := ← b.flagAt 142
    assigned := ← b.flagAt 146
    raim := ← b.flagAt 147
    radioStatus := ← b.word32At 148 20 }

/-- Type 18. -/
def classBPositionReport (b : Bits) : Except Error ClassBPositionReport := do
  return {
    header := ← header b
    reserved := ← b.word8At 38 8
    speedOverGround := ← b.speedAt 46
    positionAccuracy := ← b.flagAt 56
    longitude := ← b.coordinateAt 57 28
    latitude := ← b.coordinateAt 85 27
    courseOverGround := ← b.courseAt 112
    trueHeading := ← b.word16At 124 9
    second := ← b.word8At 133 6
    regional := ← b.word8At 139 2
    csUnit := ← b.flagAt 141
    display := ← b.flagAt 142
    dsc := ← b.flagAt 143
    band := ← b.flagAt 144
    msg22 := ← b.flagAt 145
    assigned := ← b.flagAt 146
    raim := ← b.flagAt 147
    radioStatus := ← b.word32At 148 20 }

/-- Type 19. -/
def extendedClassBReport (b : Bits) : Except Error ExtendedClassBReport := do
  return {
    header := ← header b
    reserved := ← b.word8At 38 8
    speedOverGround := ← b.speedAt 46
    positionAccuracy := ← b.flagAt 56
    longitude := ← b.coordinateAt 57 28
    latitude := ← b.coordinateAt 85 27
    courseOverGround := ← b.courseAt 112
    trueHeading := ← b.word16At 124 9
    second := ← b.word8At 133 6
    regional := ← b.word8At 139 4
    vesselName := ← b.textAt 143 120
    shipType := ← b.word8At 263 8
    dimensions := ← dimensions b 271
    device := ← b.codedAt 301 4
    raim := ← b.flagAt 305
    dte := ← b.flagAt 306
    assigned := ← b.flagAt 307 }

/-- Type 27. -/
def longRangeReport (b : Bits) : Except Error LongRangeReport := do
  return {
    header := ← header b
    positionAccuracy := ← b.flagAt 38
    raim := ← b.flagAt 39
    status := ← b.codedAt 40 4
    longitude := ← b.coordinateAt 44 18
    latitude := ← b.coordinateAt 62 17
    speedOverGround := ← b.word8At 79 6
    courseOverGround := ← b.word16At 85 9
    positionLatency := ← b.flagAt 94 }

/-! ## Ships and marks -/

/-- A time of arrival, from `offset` on. -/
def arrival (b : Bits) (offset : Nat) : Except Error Arrival := do
  return {
    month := ← b.word8At offset 4
    day := ← b.word8At (offset + 4) 5
    hour := ← b.word8At (offset + 9) 5
    minute := ← b.word8At (offset + 14) 6 }

/-- The last flag of type 5, not set in a message that ends before it. -/
def dte (b : Bits) : Except Error Bool :=
  if b.length < 423 then pure false else b.flagAt 422

/-- The destination of type 5 and the flag behind it; in a message that ends early the destination
has one character less. -/
def destination (b : Bits) : Except Error (String × Bool) := do
  return (← b.textAt 302 (if b.length < 422 then 114 else 120), ← dte b)

/-- Type 5. -/
def staticVoyageData (b : Bits) : Except Error StaticVoyageData := do
  let header ← header b
  let aisVersion ← b.word8At 38 2
  let imo ← b.word32At 40 30
  let callsign ← b.textAt 70 42
  let vesselName ← b.textAt 112 120
  let shipType ← b.word8At 232 8
  let dimensions ← dimensions b 240
  let device ← b.codedAt 270 4
  let eta ← arrival b 274
  let draught ← b.tenthsAt 294 8
  let (destination, dte) ← destination b
  return {
    header, aisVersion, imo, callsign, vesselName, shipType, dimensions, device, eta, draught,
    destination, dte }

/-- Type 21; of the extension of the name the whole characters. -/
def aidToNavigationReport (b : Bits) : Except Error AidToNavigationReport := do
  return {
    header := ← header b
    aidType := ← b.word8At 38 5
    name := ← b.textAt 43 120
    positionAccuracy := ← b.flagAt 163
    longitude := ← b.coordinateAt 164 28
    latitude := ← b.coordinateAt 192 27
    dimensions := ← dimensions b 219
    device := ← b.codedAt 249 4
    second := ← b.word8At 253 6
    offPosition := ← b.flagAt 259
    regional := ← b.word8At 260 8
    raim := ← b.flagAt 268
    virtualAid := ← b.flagAt 269
    assigned := ← b.flagAt 270
    nameExtension := ← b.textAt 272 (6 * min ((b.length - 272) / 6) 14) }

/-- What part B refers to, from `offset` on: the number of the sender says whether it is an auxiliary
craft. -/
def reference (b : Bits) (sender : Mmsi) (offset : Nat) : Except Error ShipReference := do
  if isAuxiliaryCraft sender then return .mothership (← b.word32At offset 30)
  else return .dimensions (← dimensions b offset)

/-- Part B of type 24. -/
def equipment (b : Bits) (sender : Mmsi) : Except Error Equipment := do
  return {
    shipType := ← b.word8At 40 8
    vendorId := ← b.textAt 48 18
    model := ← b.word8At 66 4
    serial := ← b.word32At 70 20
    callsign := ← b.textAt 90 42
    reference := ← reference b sender 132 }

/-- The part of type 24, which the number in front of it says. -/
def staticDataPart (b : Bits) (sender : Mmsi) : Except Error StaticDataPart := do
  match ← b.uintAt 38 2 with
  | 0 => return .a (← b.textAt 40 120)
  | 1 => return .b (← equipment b sender)
  | number => .error (.unsupportedLayout 24 (.partNumber number))

/-- Type 24. -/
def staticDataReport (b : Bits) : Except Error StaticDataReport := do
  let header ← header b
  return { header, part := ← staticDataPart b header.mmsi }

/-! ## What a station sends to others -/

def applicationId (b : Bits) (offset : Nat) : Except Error ApplicationId := do
  return {
    dac := ← b.word16At offset 10
    fid := ← b.word8At (offset + 10) 6 }

/-- Type 6. -/
def addressedBinary (b : Bits) : Except Error AddressedBinary := do
  return {
    header := ← header b
    sequenceNumber := ← b.word8At 38 2
    destination := ← b.word32At 40 30
    retransmit := ← b.flagAt 70
    application := ← applicationId b 72
    data := ← b.slice 88 (b.length - 88) }

def acknowledgement (b : Bits) (offset : Nat) : Except Error Acknowledgement := do
  return {
    mmsi := ← b.word32At offset 30
    sequenceNumber := ← b.word8At (offset + 30) 2 }

/-- Types 7 and 13. -/
def acknowledge (b : Bits) : Except Error Acknowledge := do
  return {
    header := ← header b
    acknowledgements :=
      ← (List.range' 40 (min 4 ((b.length - 40) / 32)) 32).mapM (acknowledgement b) }

/-- Type 8. -/
def binaryBroadcast (b : Bits) : Except Error BinaryBroadcast := do
  return {
    header := ← header b
    application := ← applicationId b 40
    data := ← b.slice 56 (b.length - 56) }

/-- Type 12; of the text the whole characters. -/
def addressedSafety (b : Bits) : Except Error AddressedSafety := do
  return {
    header := ← header b
    sequenceNumber := ← b.word8At 38 2
    destination := ← b.word32At 40 30
    retransmit := ← b.flagAt 70
    text := ← b.textAt 72 (6 * min ((b.length - 72) / 6) 156) }

/-- Type 14; of the text the whole characters. -/
def safetyBroadcast (b : Bits) : Except Error SafetyBroadcast := do
  return {
    header := ← header b
    text := ← b.textAt 40 (6 * min ((b.length - 40) / 6) 161) }

/-- Type 17. -/
def dgnssBroadcast (b : Bits) : Except Error DgnssBroadcast := do
  return {
    header := ← header b
    longitude := ← b.coordinateAt 40 18
    latitude := ← b.coordinateAt 58 17
    data := ← b.slice 80 (b.length - 80) }

/-- Where the application of types 25 and 26 is, behind the station if there is one. -/
def applicationOffset (b : Bits) : Nat :=
  40 + 30 * (b.bit 38).toNat

/-- Where the data of types 25 and 26 starts. -/
def dataOffset (b : Bits) : Nat :=
  applicationOffset b + 16 * (b.bit 39).toNat

/-- The station and the application that two flags announce. -/
def recipient (b : Bits) : Except Error (Option Mmsi × Option ApplicationId) := do
  let addressed ← b.flagAt 38
  let structured ← b.flagAt 39
  return (← Bits.whenSet addressed (b.word32At 40 30),
    ← Bits.whenSet structured (applicationId b (applicationOffset b)))

/-- Type 25. -/
def singleSlotBinary (b : Bits) : Except Error SingleSlotBinary := do
  let header ← header b
  let (destination, application) ← recipient b
  return {
    header, destination, application
    data := ← b.slice (dataOffset b) (b.length - dataOffset b) }

/-- Type 26; the data ends 20 bits before the message does. -/
def multipleSlotBinary (b : Bits) : Except Error MultipleSlotBinary := do
  let header ← header b
  let (destination, application) ← recipient b
  return {
    header, destination, application
    data := ← b.slice (dataOffset b) (b.length - 20 - dataOffset b)
    radioStatus := ← b.word32At (b.length - 20) 20 }

/-! ## How the radio link is run -/

/-- Type 10. -/
def utcInquiry (b : Bits) : Except Error UtcInquiry := do
  return {
    header := ← header b
    destination := ← b.word32At 40 30 }

def slotRequest (b : Bits) (offset : Nat) : Except Error SlotRequest := do
  return {
    messageType := ← b.word8At offset 6
    slotOffset := ← b.word16At (offset + 6) 12 }

def secondInterrogation (b : Bits) (offset : Nat) : Except Error SecondInterrogation := do
  return {
    mmsi := ← b.word32At offset 30
    request := ← slotRequest b (offset + 30) }

/-- Type 15. -/
def interrogation (b : Bits) : Except Error Interrogation := do
  return {
    header := ← header b
    mmsi := ← b.word32At 40 30
    firstRequest := ← slotRequest b 70
    secondRequest := ← b.whenLength 110 (slotRequest b 90)
    second := ← b.whenLength 160 (secondInterrogation b 110) }

def slotAssignment (b : Bits) (offset : Nat) : Except Error SlotAssignment := do
  return {
    mmsi := ← b.word32At offset 30
    offset := ← b.word16At (offset + 30) 12
    increment := ← b.word16At (offset + 42) 10 }

/-- Type 16. -/
def assignmentModeCommand (b : Bits) : Except Error AssignmentModeCommand := do
  let header ← header b
  let first ← slotAssignment b 40
  let second ← b.whenLength 144 (slotAssignment b 92)
  return { header, assignments := first :: second.toList }

def slotReservation (b : Bits) (offset : Nat) : Except Error SlotReservation := do
  return {
    offset := ← b.word16At offset 12
    number := ← b.word8At (offset + 12) 4
    timeout := ← b.word8At (offset + 16) 3
    increment := ← b.word16At (offset + 19) 11 }

/-- Type 20. -/
def dataLinkManagement (b : Bits) : Except Error DataLinkManagement := do
  return {
    header := ← header b
    reservations :=
      ← (List.range' 40 (min 4 ((b.length - 40) / 30)) 30).mapM (slotReservation b) }

/-- Two corners of a region, from `offset` on. -/
def region (b : Bits) (offset : Nat) : Except Error Region := do
  return {
    neLongitude := ← b.coordinateAt offset 18
    neLatitude := ← b.coordinateAt (offset + 18) 17
    swLongitude := ← b.coordinateAt (offset + 35) 18
    swLatitude := ← b.coordinateAt (offset + 53) 17 }

/-- The area of type 22, which the flag behind it says the kind of. -/
def channelArea (b : Bits) : Except Error ChannelArea := do
  if ← b.flagAt 139 then return .addressed (← b.word32At 69 30) (← b.word32At 104 30)
  else return .region (← region b 69)

/-- Type 22. -/
def channelManagement (b : Bits) : Except Error ChannelManagement := do
  return {
    header := ← header b
    channelA := ← b.word16At 40 12
    channelB := ← b.word16At 52 12
    txrxMode := ← b.word8At 64 4
    lowPower := ← b.flagAt 68
    area := ← channelArea b
    bandA := ← b.flagAt 140
    bandB := ← b.flagAt 141
    zoneSize := ← b.word8At 142 3 }

/-- Type 23. -/
def groupAssignmentCommand (b : Bits) : Except Error GroupAssignmentCommand := do
  return {
    header := ← header b
    region := ← region b 40
    stationType := ← b.word8At 110 4
    shipType := ← b.word8At 114 8
    txrxMode := ← b.word8At 144 2
    reportInterval := ← b.word8At 146 4
    quietTime := ← b.word8At 150 4 }

/-! ## Messages -/

/-- A message of a type. -/
def body (b : Bits) : Nat → Except Error Message
  | 1 => return .positionReportScheduled (← positionReport b)
  | 2 => return .positionReportAssigned (← positionReport b)
  | 3 => return .positionReportInterrogated (← positionReport b)
  | 4 => return .baseStationReport (← baseStationReport b)
  | 5 => return .staticVoyageData (← staticVoyageData b)
  | 6 => return .addressedBinary (← addressedBinary b)
  | 7 => return .binaryAcknowledge (← acknowledge b)
  | 8 => return .binaryBroadcast (← binaryBroadcast b)
  | 9 => return .sarAircraftReport (← sarAircraftReport b)
  | 10 => return .utcInquiry (← utcInquiry b)
  | 11 => return .utcDateResponse (← baseStationReport b)
  | 12 => return .addressedSafety (← addressedSafety b)
  | 13 => return .safetyAcknowledge (← acknowledge b)
  | 14 => return .safetyBroadcast (← safetyBroadcast b)
  | 15 => return .interrogation (← interrogation b)
  | 16 => return .assignmentModeCommand (← assignmentModeCommand b)
  | 17 => return .dgnssBroadcast (← dgnssBroadcast b)
  | 18 => return .classBPositionReport (← classBPositionReport b)
  | 19 => return .extendedClassBReport (← extendedClassBReport b)
  | 20 => return .dataLinkManagement (← dataLinkManagement b)
  | 21 => return .aidToNavigationReport (← aidToNavigationReport b)
  | 22 => return .channelManagement (← channelManagement b)
  | 23 => return .groupAssignmentCommand (← groupAssignmentCommand b)
  | 24 => return .staticDataReport (← staticDataReport b)
  | 25 => return .singleSlotBinary (← singleSlotBinary b)
  | 26 => return .multipleSlotBinary (← multipleSlotBinary b)
  | 27 => return .longRangeReport (← longRangeReport b)
  | messageType => return .unknown (UInt8.ofNat messageType) (← header b)

/-- The message whose fields are at their offsets. -/
def message (b : Bits) : Except Error Message := do
  body b (← b.uintAt 0 6)

end Offsets

end Transponder

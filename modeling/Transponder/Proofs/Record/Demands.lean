import Transponder.Bits.Writer
import Transponder.Record.Message

/-!
# What the wire demands of a record

A record can be sent if every part of it has room in its field. A `Demand` is one such condition, and
`demands` lists those of a record in the order of its fields: numbers that fit into their width,
quantities that have a code, lists of so many entries, and the few conditions that involve more than
one field. Flags and texts demand nothing; a text is cut and filled instead.

`Demand.Met` says what a demand means, and `Demand.refusal?` how a record is refused that does not
meet it: with the error of the first demand that is not met.
-/

namespace Transponder

-- Powers are those of `Nat` and `Int` themselves.
attribute [local instance (high)] instPowNat

/-- The quantities that are sent as codes. -/
inductive Quantity.Kind where
  | coordinate (axis : Quantity.Axis) (field : String) (width : Nat)
  | speed
  | course
  | rateOfTurn
  | draught
deriving DecidableEq

/-- Writes a quantity into the field of its kind. -/
def Writer.quantity (w : Writer) (x : Binary64) : Quantity.Kind → Writer × Except Error Unit
  | .coordinate axis field width => w.coordinate axis field x width
  | .speed => w.speed "speed_over_ground" x
  | .course => w.course "course_over_ground" x
  | .rateOfTurn => w.rateOfTurn "rate_of_turn" x
  | .draught => w.coded "draught" (Quantity.draughtCode x) (·.uint "draught" · 8)

/-- A condition under which a part of a record can be sent. -/
inductive Demand where
  /-- A number has room in a field. -/
  | number (field : String) (n width : Nat)
  /-- A quantity is taken by the writer of its kind. -/
  | quantity (kind : Quantity.Kind) (x : Binary64)
  /-- There are so many entries, at least one and at most `limit`. -/
  | count (field : String) (count limit : Nat) (expected : String)
  /-- The craft that are attached to a mother ship, and only they, refer to one. -/
  | reference (sender : Mmsi) (reference : ShipReference)
  /-- A message of so many bits fits into one slot. -/
  | slot (length : Nat)
deriving DecidableEq

namespace Demand

def Met : Demand → Prop
  | .number _ n width => n < 2 ^ width
  | .quantity kind x => (Writer.empty.quantity x kind).2 = .ok ()
  | .count _ n limit _ => 1 ≤ n ∧ n ≤ limit
  | .reference sender target =>
    (∃ mmsi, target = .mothership mmsi) ↔ isAuxiliaryCraft sender = true
  | .slot length => length ≤ slotLength

/-- The error of a demand that is not met. -/
def refusal? : Demand → Option Error
  | .number field n width =>
    if n < 2 ^ width then none else some (.unencodable field (.tooWide n width))
  | .quantity kind x =>
    match (Writer.empty.quantity x kind).2 with
    | .ok _ => none
    | .error e => some e
  | .count field n limit expected =>
    if 1 ≤ n ∧ n ≤ limit then none else some (.unencodable field (.entryCount n expected))
  | .reference sender (.mothership _) =>
    if isAuxiliaryCraft sender then none
    else some (.unencodable "reference" (.notAuxiliary sender.toNat))
  | .reference sender (.dimensions _) =>
    if isAuxiliaryCraft sender then
      some (.unencodable "reference" (.auxiliaryWithoutMothership sender.toNat))
    else none
  | .slot length =>
    if length ≤ slotLength then none else some (.unencodable "data" (.beyondSlot length))

theorem refusal?_eq_none_iff {d : Demand} : d.refusal? = none ↔ d.Met := by
  cases d with
  | number field n width => simp [refusal?, Met]
  | quantity kind x => cases h : (Writer.empty.quantity x kind).2 <;> simp [refusal?, Met, h]
  | count field n limit expected => simp [refusal?, Met]
  | reference sender target =>
    cases target <;> cases h : isAuxiliaryCraft sender <;> simp [refusal?, Met, h]
  | slot length => simp [refusal?, Met]

/-- The error of the first demand that is not met. -/
def firstRefusal? (ds : List Demand) : Option Error :=
  ds.findSome? refusal?

theorem firstRefusal?_eq_none_iff {ds : List Demand} :
    firstRefusal? ds = none ↔ ∀ d ∈ ds, d.Met := by
  simp only [firstRefusal?, List.findSome?_eq_none_iff, refusal?_eq_none_iff]

theorem firstRefusal?_append (ds ds' : List Demand) :
    firstRefusal? (ds ++ ds') = (firstRefusal? ds).or (firstRefusal? ds') :=
  List.findSome?_append

/-! ## Every refusal names a field -/

theorem unencodable_of_uint {w : Writer} {field : String} {n width : Nat} {e : Error}
    (h : (w.uint field n width).2 = .error e) : ∃ fault, e = .unencodable field fault := by
  unfold Writer.uint at h
  split at h
  · cases h
    exact ⟨_, rfl⟩
  · cases h

theorem unencodable_of_int {w : Writer} {field : String} {i : Int} {width : Nat} {e : Error}
    (h : (w.int field i width).2 = .error e) : ∃ fault, e = .unencodable field fault := by
  unfold Writer.int at h
  split at h
  · cases h
    exact ⟨_, rfl⟩
  · split at h
    · cases h
      exact ⟨_, rfl⟩
    · cases h

/-- A value that has no code is refused in the name of its field, and so is one with a code that does
not fit. -/
theorem unencodable_of_coded {ι : Type} {w : Writer} {field : String} {code : Except FieldFault ι}
    {put : Writer → ι → Writer × Except Error Unit} {e : Error}
    (h : (w.coded field code put).2 = .error e)
    (hput : ∀ c, (put w c).2 = .error e → ∃ fault, e = .unencodable field fault) :
    ∃ fault, e = .unencodable field fault := by
  cases code with
  | error fault =>
    cases h
    exact ⟨fault, rfl⟩
  | ok c => exact hput c h

theorem unencodable_of_quantity {w : Writer} {kind : Quantity.Kind} {x : Binary64} {e : Error}
    (h : (w.quantity x kind).2 = .error e) : ∃ field fault, e = .unencodable field fault := by
  cases kind with
  | coordinate axis field width => exact ⟨_, unencodable_of_coded h fun _ => unencodable_of_int⟩
  | speed => exact ⟨_, unencodable_of_coded h fun _ => unencodable_of_uint⟩
  | course => exact ⟨_, unencodable_of_coded h fun _ => unencodable_of_uint⟩
  | rateOfTurn => exact ⟨_, unencodable_of_coded h fun _ => unencodable_of_int⟩
  | draught => exact ⟨_, unencodable_of_coded h fun _ => unencodable_of_uint⟩

theorem unencodable_of_refusal? {d : Demand} {e : Error} (h : d.refusal? = some e) :
    ∃ field fault, e = .unencodable field fault := by
  cases d with
  | quantity kind x =>
    cases hput : (Writer.empty.quantity x kind).2 with
    | ok _ => simp [refusal?, hput] at h
    | error e' =>
      simp only [refusal?, hput, Option.some.injEq] at h
      exact h ▸ unencodable_of_quantity hput
  | reference sender target =>
    cases target with
    | dimensions size =>
      simp only [refusal?, Option.ite_none_right_eq_some, Option.some.injEq] at h
      exact ⟨_, _, h.2.symm⟩
    | mothership mmsi =>
      simp only [refusal?, Option.ite_none_left_eq_some, Option.some.injEq] at h
      exact ⟨_, _, h.2.symm⟩
  | _ =>
    simp only [refusal?, Option.ite_none_left_eq_some, Option.some.injEq] at h
    exact ⟨_, _, h.2.symm⟩

theorem unencodable_of_firstRefusal? {ds : List Demand} {e : Error} (h : firstRefusal? ds = some e) :
    ∃ field fault, e = .unencodable field fault := by
  obtain ⟨d, -, hd⟩ := List.exists_of_findSome?_eq_some h
  exact unencodable_of_refusal? hd

/-! ## Kinds of quantities -/

def longitude (width : Nat) (degrees : Binary64) : Demand :=
  quantity (.coordinate .longitude "longitude" width) degrees

def latitude (width : Nat) (degrees : Binary64) : Demand :=
  quantity (.coordinate .latitude "latitude" width) degrees

def speed (knots : Binary64) : Demand :=
  quantity .speed knots

def course (degrees : Binary64) : Demand :=
  quantity .course degrees

def rateOfTurn (rate : Binary64) : Demand :=
  quantity .rateOfTurn rate

def draught (metres : Binary64) : Demand :=
  quantity .draught metres

end Demand

/-! ## Parts -/

def Header.demands (s : Header) : List Demand :=
  [.number "repeat_indicator" s.repeatIndicator.toNat 2, .number "mmsi" s.mmsi.toNat 30]

def Dimensions.demands (s : Dimensions) : List Demand :=
  [.number "to_bow" s.toBow.toNat 9, .number "to_stern" s.toStern.toNat 9,
    .number "to_port" s.toPort.toNat 6, .number "to_starboard" s.toStarboard.toNat 6]

/-! ## Where a station is -/

def PositionReport.demands (m : PositionReport) : List Demand :=
  m.header.demands ++ [.number "nav_status" (Coded.code m.status) 4, .rateOfTurn m.rateOfTurn,
    .speed m.speedOverGround, .longitude 28 m.longitude, .latitude 27 m.latitude,
    .course m.courseOverGround, .number "true_heading" m.trueHeading.toNat 9,
    .number "second" m.second.toNat 6, .number "maneuver" (Coded.code m.maneuver) 2,
    .number "radio_status" m.radioStatus.toNat 19]

def BaseStationReport.demands (m : BaseStationReport) : List Demand :=
  m.header.demands ++ [.number "year" m.year.toNat 14, .number "month" m.month.toNat 4,
    .number "day" m.day.toNat 5, .number "hour" m.hour.toNat 5, .number "minute" m.minute.toNat 6,
    .number "second" m.second.toNat 6, .longitude 28 m.longitude, .latitude 27 m.latitude,
    .number "epfd" (Coded.code m.device) 4, .number "radio_status" m.radioStatus.toNat 19]

def SarAircraftReport.demands (m : SarAircraftReport) : List Demand :=
  m.header.demands ++ [.number "altitude" m.altitude.toNat 12,
    .number "speed_over_ground" m.speedOverGround.toNat 10, .longitude 28 m.longitude,
    .latitude 27 m.latitude, .course m.courseOverGround, .number "second" m.second.toNat 6,
    .number "regional" m.regional.toNat 8, .number "radio_status" m.radioStatus.toNat 20]

def ClassBPositionReport.demands (m : ClassBPositionReport) : List Demand :=
  m.header.demands ++ [.number "reserved" m.reserved.toNat 8, .speed m.speedOverGround,
    .longitude 28 m.longitude, .latitude 27 m.latitude, .course m.courseOverGround,
    .number "true_heading" m.trueHeading.toNat 9, .number "second" m.second.toNat 6,
    .number "regional" m.regional.toNat 2, .number "radio_status" m.radioStatus.toNat 20]

def ExtendedClassBReport.demands (m : ExtendedClassBReport) : List Demand :=
  m.header.demands ++ ([.number "reserved" m.reserved.toNat 8, .speed m.speedOverGround,
    .longitude 28 m.longitude, .latitude 27 m.latitude, .course m.courseOverGround,
    .number "true_heading" m.trueHeading.toNat 9, .number "second" m.second.toNat 6,
    .number "regional" m.regional.toNat 4, .number "ship_type" m.shipType.toNat 8] ++
    (m.dimensions.demands ++ [.number "epfd" (Coded.code m.device) 4]))

def LongRangeReport.demands (m : LongRangeReport) : List Demand :=
  m.header.demands ++ [.number "nav_status" (Coded.code m.status) 4, .longitude 18 m.longitude,
    .latitude 17 m.latitude, .number "speed_over_ground" m.speedOverGround.toNat 6,
    .number "course_over_ground" m.courseOverGround.toNat 9]

/-! ## Ships and marks -/

def Arrival.demands (s : Arrival) : List Demand :=
  [.number "eta_month" s.month.toNat 4, .number "eta_day" s.day.toNat 5,
    .number "eta_hour" s.hour.toNat 5, .number "eta_minute" s.minute.toNat 6]

def StaticVoyageData.demands (m : StaticVoyageData) : List Demand :=
  m.header.demands ++ ([.number "ais_version" m.aisVersion.toNat 2, .number "imo" m.imo.toNat 30,
    .number "ship_type" m.shipType.toNat 8] ++ (m.dimensions.demands ++
    ([.number "epfd" (Coded.code m.device) 4] ++ (m.eta.demands ++ [.draught m.draught]))))

def AidToNavigationReport.demands (m : AidToNavigationReport) : List Demand :=
  m.header.demands ++ ([.number "aid_type" m.aidType.toNat 5, .longitude 28 m.longitude,
    .latitude 27 m.latitude] ++ (m.dimensions.demands ++
    [.number "epfd" (Coded.code m.device) 4, .number "second" m.second.toNat 6,
      .number "regional" m.regional.toNat 8]))

/-- A reference must be of the right kind before it is looked at. -/
def ShipReference.demands (sender : Mmsi) (s : ShipReference) : List Demand :=
  .reference sender s ::
    match s with
    | .mothership mmsi => [.number "mothership_mmsi" mmsi.toNat 30]
    | .dimensions size => size.demands

def Equipment.demands (sender : Mmsi) (s : Equipment) : List Demand :=
  [.number "ship_type" s.shipType.toNat 8, .number "model" s.model.toNat 4,
    .number "serial" s.serial.toNat 20] ++ s.reference.demands sender

def StaticDataPart.demands (sender : Mmsi) (s : StaticDataPart) : List Demand :=
  .number "part_number" s.number 2 ::
    match s with
    | .a _ => []
    | .b equipment => equipment.demands sender

def StaticDataReport.demands (m : StaticDataReport) : List Demand :=
  m.header.demands ++ m.part.demands m.header.mmsi

/-! ## What a station sends to others -/

def ApplicationId.demands (s : ApplicationId) : List Demand :=
  [.number "dac" s.dac.toNat 10, .number "fid" s.fid.toNat 6]

def AddressedBinary.demands (m : AddressedBinary) : List Demand :=
  m.header.demands ++ ([.number "sequence_number" m.sequenceNumber.toNat 2,
    .number "dest_mmsi" m.destination.toNat 30] ++ m.application.demands)

def Acknowledgement.demands (s : Acknowledgement) : List Demand :=
  [.number "mmsi" s.mmsi.toNat 30, .number "sequence_number" s.sequenceNumber.toNat 2]

def Acknowledge.demands (m : Acknowledge) : List Demand :=
  m.header.demands ++ .count "acknowledgements" m.acknowledgements.length 4 "1 to 4" ::
    m.acknowledgements.flatMap Acknowledgement.demands

def BinaryBroadcast.demands (m : BinaryBroadcast) : List Demand :=
  m.header.demands ++ m.application.demands

def AddressedSafety.demands (m : AddressedSafety) : List Demand :=
  m.header.demands ++ [.number "sequence_number" m.sequenceNumber.toNat 2,
    .number "dest_mmsi" m.destination.toNat 30]

def SafetyBroadcast.demands (m : SafetyBroadcast) : List Demand :=
  m.header.demands

def DgnssBroadcast.demands (m : DgnssBroadcast) : List Demand :=
  m.header.demands ++ [.longitude 18 m.longitude, .latitude 17 m.latitude]

/-- The station and the application that data is for, if it is for one. -/
def recipientDemands (destination : Option Mmsi) (application : Option ApplicationId) :
    List Demand :=
  (destination.elim [] fun mmsi => [.number "dest_mmsi" mmsi.toNat 30]) ++
    application.elim [] ApplicationId.demands

/-- The bits in front of data, behind the header, by what it is for. -/
def recipientLength (destination : Option Mmsi) (application : Option ApplicationId) : Nat :=
  2 + 30 * destination.isSome.toNat + 16 * application.isSome.toNat

def SingleSlotBinary.demands (m : SingleSlotBinary) : List Demand :=
  m.header.demands ++ (recipientDemands m.destination m.application ++
    [.slot (38 + recipientLength m.destination m.application + m.data.length)])

def MultipleSlotBinary.demands (m : MultipleSlotBinary) : List Demand :=
  m.header.demands ++ (recipientDemands m.destination m.application ++
    [.number "radio_status" m.radioStatus.toNat 20])

/-! ## How the radio link is run -/

def UtcInquiry.demands (m : UtcInquiry) : List Demand :=
  m.header.demands ++ [.number "dest_mmsi" m.destination.toNat 30]

def SlotRequest.demands (s : SlotRequest) : List Demand :=
  [.number "message_type" s.messageType.toNat 6, .number "slot_offset" s.slotOffset.toNat 12]

def SecondInterrogation.demands (s : SecondInterrogation) : List Demand :=
  .number "second_mmsi" s.mmsi.toNat 30 :: s.request.demands

def Interrogation.demands (m : Interrogation) : List Demand :=
  m.header.demands ++ ([.number "mmsi" m.mmsi.toNat 30] ++ (m.firstRequest.demands ++
    (m.secondRequest.elim [] SlotRequest.demands ++ m.second.elim [] SecondInterrogation.demands)))

def SlotAssignment.demands (s : SlotAssignment) : List Demand :=
  [.number "mmsi" s.mmsi.toNat 30, .number "offset" s.offset.toNat 12,
    .number "increment" s.increment.toNat 10]

def AssignmentModeCommand.demands (m : AssignmentModeCommand) : List Demand :=
  m.header.demands ++ .count "assignments" m.assignments.length 2 "1 or 2" ::
    m.assignments.flatMap SlotAssignment.demands

def SlotReservation.demands (s : SlotReservation) : List Demand :=
  [.number "offset" s.offset.toNat 12, .number "number" s.number.toNat 4,
    .number "timeout" s.timeout.toNat 3, .number "increment" s.increment.toNat 11]

def DataLinkManagement.demands (m : DataLinkManagement) : List Demand :=
  m.header.demands ++ .count "reservations" m.reservations.length 4 "1 to 4" ::
    m.reservations.flatMap SlotReservation.demands

/-- The corners of a region have names of their own in errors. -/
def Region.demands (s : Region) : List Demand :=
  [.quantity (.coordinate .longitude "ne_longitude" 18) s.neLongitude,
    .quantity (.coordinate .latitude "ne_latitude" 17) s.neLatitude,
    .quantity (.coordinate .longitude "sw_longitude" 18) s.swLongitude,
    .quantity (.coordinate .latitude "sw_latitude" 17) s.swLatitude]

def ChannelArea.demands : ChannelArea → List Demand
  | .addressed first second =>
    [.number "dest_mmsi_1" first.toNat 30, .number "dest_mmsi_2" second.toNat 30]
  | .region corners => corners.demands

def ChannelManagement.demands (m : ChannelManagement) : List Demand :=
  m.header.demands ++ ([.number "channel_a" m.channelA.toNat 12,
    .number "channel_b" m.channelB.toNat 12, .number "txrx_mode" m.txrxMode.toNat 4] ++
    (m.area.demands ++ [.number "zone_size" m.zoneSize.toNat 3]))

def GroupAssignmentCommand.demands (m : GroupAssignmentCommand) : List Demand :=
  m.header.demands ++ (m.region.demands ++ [.number "station_type" m.stationType.toNat 4,
    .number "ship_type" m.shipType.toNat 8, .number "txrx_mode" m.txrxMode.toNat 2,
    .number "report_interval" m.reportInterval.toNat 4, .number "quiet_time" m.quietTime.toNat 4])

/-! ## Messages -/

namespace Message

/-- What is demanded of a message behind the number of its type. -/
def bodyDemands : Message → List Demand
  | positionReportScheduled m | positionReportAssigned m | positionReportInterrogated m => m.demands
  | baseStationReport m | utcDateResponse m => m.demands
  | staticVoyageData m => m.demands
  | addressedBinary m => m.demands
  | binaryAcknowledge m | safetyAcknowledge m => m.demands
  | binaryBroadcast m => m.demands
  | sarAircraftReport m => m.demands
  | utcInquiry m => m.demands
  | addressedSafety m => m.demands
  | safetyBroadcast m => m.demands
  | interrogation m => m.demands
  | assignmentModeCommand m => m.demands
  | dgnssBroadcast m => m.demands
  | classBPositionReport m => m.demands
  | extendedClassBReport m => m.demands
  | dataLinkManagement m => m.demands
  | aidToNavigationReport m => m.demands
  | channelManagement m => m.demands
  | groupAssignmentCommand m => m.demands
  | staticDataReport m => m.demands
  | singleSlotBinary m => m.demands
  | multipleSlotBinary m => m.demands
  | longRangeReport m => m.demands
  | unknown _ header => header.demands

def demands (m : Message) : List Demand :=
  .number "message_type" m.messageType.toNat 6 :: m.bodyDemands

/-- The bits of a message that can be sent. -/
def encodedLength : Message → Nat
  | positionReportScheduled _ | positionReportAssigned _ | positionReportInterrogated _
  | baseStationReport _ | sarAircraftReport _ | utcDateResponse _ | classBPositionReport _
  | channelManagement _ => 168
  | staticVoyageData _ => 424
  | addressedBinary m => 88 + m.data.length
  | binaryAcknowledge m | safetyAcknowledge m => 40 + 32 * m.acknowledgements.length
  | binaryBroadcast m => 56 + m.data.length
  | utcInquiry _ => 72
  | addressedSafety m => 72 + 6 * min m.text.length 156
  | safetyBroadcast m => 40 + 6 * min m.text.length 161
  | interrogation m =>
    match m.secondRequest, m.second with
    | none, none => 88
    | some _, none => 110
    | _, some _ => 160
  | assignmentModeCommand m => if m.assignments.length = 1 then 96 else 144
  | dgnssBroadcast m => 80 + m.data.length
  | extendedClassBReport _ => 312
  | dataLinkManagement m =>
    match m.reservations.length with
    | 1 => 72
    | 2 => 104
    | 3 => 136
    | _ => 160
  | aidToNavigationReport m => 272 + 6 * min m.nameExtension.length 14
  | groupAssignmentCommand _ => 160
  | staticDataReport m =>
    match m.part with
    | .a _ => 160
    | .b _ => 168
  | singleSlotBinary m => 38 + recipientLength m.destination m.application + m.data.length
  | multipleSlotBinary m => 58 + recipientLength m.destination m.application + m.data.length
  | longRangeReport _ => 96
  | unknown _ _ => 38

end Message

end Transponder

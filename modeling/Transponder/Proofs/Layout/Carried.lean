import Transponder.Proofs.Layout.Carries
import Transponder.Proofs.Layout.Located

/-!
# Layouts carry their records

Every layout of a message reads back what it wrote, behind the number of the type, as the normalised
record. Where a layout looks at the length of the message or at a flag, the cases are those of the
record: how many entries there are, which parts are missing, and which kind of area it is.
-/

namespace Transponder.Layout

variable {σ α : Type} {p : Nat}

/-! ## Parts -/

theorem coded_carries [Coded α] [DecidableEq α] {field : String} {width : Nat} {a : α}
    (ha : Coded.ofCode (Coded.code a) = a) : Carries (coded field width) p a width a :=
  uint_carries.on.returning.cast rfl ha

theorem status_carries {a : NavigationStatus} : Carries (coded "nav_status" 4) p a 4 a :=
  coded_carries a.ofCode_code

theorem device_carries {a : PositionDevice} : Carries (coded "epfd" 4) p a 4 a :=
  coded_carries a.ofCode_code

theorem maneuver_carries {a : Maneuver} : Carries (coded "maneuver" 2) p a 2 a :=
  coded_carries a.ofCode_code

theorem coordinate_carries (axis : Quantity.Axis) (width : Nat) {field : String} {x : Binary64} :
    Carries (coordinate axis field width) p x width (Quantity.sentCoordinate axis width x) :=
  quantity_carries fun _ => int_carries

theorem longitude_carries {width : Nat} {x : Binary64} :
    Carries (longitude width) p x width (Quantity.sentLongitude width x) :=
  coordinate_carries .longitude width

theorem latitude_carries {width : Nat} {x : Binary64} :
    Carries (latitude width) p x width (Quantity.sentLatitude width x) :=
  coordinate_carries .latitude width

theorem speed_carries {x : Binary64} : Carries speed p x 10 (Quantity.sentSpeed x) :=
  quantity_carries fun _ => uint_carries

theorem course_carries {x : Binary64} : Carries course p x 12 (Quantity.sentCourse x) :=
  quantity_carries fun _ => uint_carries

theorem rateOfTurn_carries {x : Binary64} : Carries rateOfTurn p x 8 (Quantity.sentRateOfTurn x) :=
  quantity_carries fun _ => int_carries

theorem draught_carries {x : Binary64} : Carries draught p x 8 (Quantity.sentDraught x) :=
  quantity_carries fun _ => uint_carries

theorem header_carries {s : Header} : Carries header p s 32 s :=
  word8_carries.on.bind fun _ _ => word32_carries.on.bind fun _ _ => .pure _

theorem dimensions_carries {s : Dimensions} : Carries dimensions p s 30 s :=
  word16_carries.on.bind fun _ _ => word16_carries.on.bind fun _ _ =>
  word8_carries.on.bind fun _ _ => word8_carries.on.bind fun _ _ => .pure _

/-! ## Where a station is -/

theorem positionReport_carries {m : PositionReport} :
    Carries positionReport p m 162 m.normalised :=
  header_carries.on.bind fun _ _ => status_carries.on.bind fun _ _ =>
  rateOfTurn_carries.on.bind fun _ _ => speed_carries.on.bind fun _ _ =>
  flag_carries.on.bind fun _ _ => longitude_carries.on.bind fun _ _ =>
  latitude_carries.on.bind fun _ _ => course_carries.on.bind fun _ _ =>
  word16_carries.on.bind fun _ _ => word8_carries.on.bind fun _ _ =>
  maneuver_carries.on.bind fun _ _ => spare_carries.bind fun _ _ => flag_carries.on.bind fun _ _ =>
  word32_carries.on.bind fun _ _ => .pure _

theorem baseStationReport_carries {m : BaseStationReport} :
    Carries baseStationReport p m 162 m.normalised :=
  header_carries.on.bind fun _ _ => word16_carries.on.bind fun _ _ =>
  word8_carries.on.bind fun _ _ => word8_carries.on.bind fun _ _ =>
  word8_carries.on.bind fun _ _ => word8_carries.on.bind fun _ _ =>
  word8_carries.on.bind fun _ _ => flag_carries.on.bind fun _ _ =>
  longitude_carries.on.bind fun _ _ => latitude_carries.on.bind fun _ _ =>
  device_carries.on.bind fun _ _ => spare_carries.bind fun _ _ => flag_carries.on.bind fun _ _ =>
  word32_carries.on.bind fun _ _ => .pure _

theorem sarAircraftReport_carries {m : SarAircraftReport} :
    Carries sarAircraftReport p m 162 m.normalised :=
  header_carries.on.bind fun _ _ => word16_carries.on.bind fun _ _ =>
  word16_carries.on.bind fun _ _ => flag_carries.on.bind fun _ _ =>
  longitude_carries.on.bind fun _ _ => latitude_carries.on.bind fun _ _ =>
  course_carries.on.bind fun _ _ => word8_carries.on.bind fun _ _ =>
  word8_carries.on.bind fun _ _ => flag_carries.on.bind fun _ _ => spare_carries.bind fun _ _ =>
  flag_carries.on.bind fun _ _ => flag_carries.on.bind fun _ _ =>
  word32_carries.on.bind fun _ _ => .pure _

theorem classBPositionReport_carries {m : ClassBPositionReport} :
    Carries classBPositionReport p m 162 m.normalised :=
  header_carries.on.bind fun _ _ => word8_carries.on.bind fun _ _ =>
  speed_carries.on.bind fun _ _ => flag_carries.on.bind fun _ _ =>
  longitude_carries.on.bind fun _ _ => latitude_carries.on.bind fun _ _ =>
  course_carries.on.bind fun _ _ => word16_carries.on.bind fun _ _ =>
  word8_carries.on.bind fun _ _ => word8_carries.on.bind fun _ _ => flag_carries.on.bind fun _ _ =>
  flag_carries.on.bind fun _ _ => flag_carries.on.bind fun _ _ => flag_carries.on.bind fun _ _ =>
  flag_carries.on.bind fun _ _ => flag_carries.on.bind fun _ _ => flag_carries.on.bind fun _ _ =>
  word32_carries.on.bind fun _ _ => .pure _

theorem extendedClassBReport_carries {m : ExtendedClassBReport} :
    Carries extendedClassBReport p m 306 m.normalised :=
  header_carries.on.bind fun _ _ => word8_carries.on.bind fun _ _ =>
  speed_carries.on.bind fun _ _ => flag_carries.on.bind fun _ _ =>
  longitude_carries.on.bind fun _ _ => latitude_carries.on.bind fun _ _ =>
  course_carries.on.bind fun _ _ => word16_carries.on.bind fun _ _ =>
  word8_carries.on.bind fun _ _ => word8_carries.on.bind fun _ _ =>
  (text_carries _).on.bind fun _ _ => word8_carries.on.bind fun _ _ =>
  dimensions_carries.on.bind fun _ _ => device_carries.on.bind fun _ _ =>
  flag_carries.on.bind fun _ _ => flag_carries.on.bind fun _ _ => flag_carries.on.bind fun _ _ =>
  spare_carries.bind fun _ _ => .pure _

theorem longRangeReport_carries {m : LongRangeReport} :
    Carries longRangeReport p m 90 m.normalised :=
  header_carries.on.bind fun _ _ => flag_carries.on.bind fun _ _ => flag_carries.on.bind fun _ _ =>
  status_carries.on.bind fun _ _ => longitude_carries.on.bind fun _ _ =>
  latitude_carries.on.bind fun _ _ => word8_carries.on.bind fun _ _ =>
  word16_carries.on.bind fun _ _ => flag_carries.on.bind fun _ _ => spare_carries.bind fun _ _ =>
  .pure _

/-! ## Ships and marks -/

theorem arrival_carries {s : Arrival} : Carries arrival p s 20 s :=
  word8_carries.on.bind fun _ _ => word8_carries.on.bind fun _ _ =>
  word8_carries.on.bind fun _ _ => word8_carries.on.bind fun _ _ => .pure _

/-- A destination and its flag as they are always written. -/
def fullDestination : Layout (String × Bool) (String × Bool) := do
  let destination ← (text 20).on (·.1)
  let dte ← flag.on (·.2)
  return (destination, dte)

theorem destination_carries {s : String × Bool} :
    Carries destination p s 121 (Text.normalised 20 s.1, s.2) := by
  have hfull : Carries fullDestination p s 121 (Text.normalised 20 s.1, s.2) :=
    (text_carries _).on.bind fun _ _ => flag_carries.on.bind fun _ _ => .pure _
  rintro w a' w' rfl h
  obtain ⟨ha, hk⟩ := hfull w a' w' rfl h
  refine ⟨ha, hk.grows, hk.length, fun b hb ht => ?_⟩
  have hle := Bits.length_le_of_isPrefix hb
  rw [hk.length] at hle
  have hr : Reads b fullDestination.read w.bits.length 121 _ :=
    (text_reads 20).on.bind fun _ _ => flag_reads.on.bind fun _ _ => .pure _
  rw [← hk.reads b hb ht]
  exact (destination_reads_flagged (by omega)).unique hr hle

theorem staticVoyageData_carries {m : StaticVoyageData} :
    Closes staticVoyageData p m 417 1 (fun _ => True) m.normalised :=
  header_carries.on.bind fun _ _ => word8_carries.on.bind fun _ _ =>
  word32_carries.on.bind fun _ _ => (text_carries _).on.bind fun _ _ =>
  (text_carries _).on.bind fun _ _ => word8_carries.on.bind fun _ _ =>
  dimensions_carries.on.bind fun _ _ => device_carries.on.bind fun _ _ =>
  arrival_carries.on.bind fun _ _ => draught_carries.on.bind fun _ _ =>
  destination_carries.on.bind fun _ _ => (filling_closes fun _ _ => rfl).returning

theorem aidToNavigationReport_closes {m : AidToNavigationReport} :
    Closes aidToNavigationReport p m (266 + 6 * min m.nameExtension.length 14) 0 (· < 6)
      m.normalised :=
  .cast (header_carries.on.bind fun _ _ => word8_carries.on.bind fun _ _ =>
    (text_carries _).on.bind fun _ _ => flag_carries.on.bind fun _ _ =>
    longitude_carries.on.bind fun _ _ => latitude_carries.on.bind fun _ _ =>
    dimensions_carries.on.bind fun _ _ => device_carries.on.bind fun _ _ =>
    word8_carries.on.bind fun _ _ => flag_carries.on.bind fun _ _ =>
    word8_carries.on.bind fun _ _ => flag_carries.on.bind fun _ _ =>
    flag_carries.on.bind fun _ _ => flag_carries.on.bind fun _ _ =>
    spare_carries.bind fun _ _ => textRun_closes.on.returning)
    (by simp only [nameExtensionLength]; omega) rfl

theorem reference_carries {sender : Mmsi} {s : ShipReference} :
    Carries (reference sender) p s 30 s := by
  unfold reference
  split
  · cases s with
    | mothership mmsi =>
      have h : Carries ((word32 "mothership_mmsi" 30).mapped ShipReference.mothership) p mmsi 30
        (.mothership mmsi) := word32_carries.mapped
      exact h.congr rfl rfl
    | dimensions size => exact fun _ _ _ _ h => nomatch h
  · cases s with
    | mothership mmsi => exact fun _ _ _ _ h => nomatch h
    | dimensions size =>
      have h : Carries (dimensions.mapped ShipReference.dimensions) p size 30 (.dimensions size) :=
        dimensions_carries.mapped
      exact h.congr rfl rfl

theorem equipment_carries {sender : Mmsi} {s : Equipment} :
    Closes (equipment sender) p s 122 6 (fun _ => True) s.normalised :=
  word8_carries.on.bind fun _ _ => (text_carries _).on.bind fun _ _ =>
  word8_carries.on.bind fun _ _ => word32_carries.on.bind fun _ _ =>
  (text_carries _).on.bind fun _ _ => reference_carries.on.bind fun _ _ =>
  (filling_closes fun _ _ => rfl).returning

/-- The width of a part of type 24 with its number, and of what fills its last byte. -/
def partWidth : StaticDataPart → Nat × Nat
  | .a _ => (122, 0)
  | .b _ => (124, 6)

theorem staticDataPart_carries {sender : Mmsi} {s : StaticDataPart} :
    Closes (staticDataPart sender) p s (partWidth s).1 (partWidth s).2 (fun _ => True)
      s.normalised := by
  rintro w s' w' rfl h
  change ((uint "part_number" 2).write s.number w >>= _) = _ at h
  cases hw : (uint "part_number" 2).write s.number w with
  | error e => rw [hw] at h; cases h
  | ok x =>
    obtain ⟨number, v⟩ := x
    rw [hw] at h
    obtain ⟨rfl, h₁⟩ := uint_carries w number v rfl hw
    cases s with
    | a vesselName =>
      have ha : Carries ((text 20).mapped StaticDataPart.a) v.bits.length vesselName 120
        (.a (Text.normalised 20 vesselName)) := (text_carries 20).mapped
      obtain ⟨rfl, h₂⟩ := ha v s' w' rfl h
      refine ⟨rfl, h₁.trans h₂ (fun _ _ => trivial) fun r r' hr => ?_⟩
      show ((uint "part_number" 2).read r >>= _) = _
      rw [hr]
      rfl
    | b equip =>
      have hb : Closes ((equipment sender).mapped StaticDataPart.b) v.bits.length equip 122 6
        (fun _ => True) (.b equip.normalised) := equipment_carries.mapped
      obtain ⟨rfl, h₂⟩ := hb v s' w' rfl h
      refine ⟨rfl, h₁.trans h₂ (fun _ _ => trivial) fun r r' hr => ?_⟩
      show ((uint "part_number" 2).read r >>= _) = _
      rw [hr]
      rfl

theorem staticDataReport_carries {m : StaticDataReport} :
    Closes staticDataReport p m (32 + (partWidth m.part).1) (partWidth m.part).2 (fun _ => True)
      m.normalised :=
  have hp : ∀ sender, Closes ((staticDataPart sender).on StaticDataReport.part) (p + 32) m
      (partWidth m.part).1 (partWidth m.part).2 (fun _ => True) m.part.normalised :=
    fun _ => staticDataPart_carries.on
  header_carries.on.bind fun _ _ => (hp _).returning

/-! ## What a station sends to others -/

theorem applicationId_carries {s : ApplicationId} : Carries applicationId p s 16 s :=
  word16_carries.on.bind fun _ _ => word8_carries.on.bind fun _ _ => .pure _

theorem addressedBinary_closes {m : AddressedBinary} :
    Closes addressedBinary p m (82 + m.data.length) 0 (· = 0) m :=
  .cast (header_carries.on.bind fun _ _ => word8_carries.on.bind fun _ _ =>
    word32_carries.on.bind fun _ _ => flag_carries.on.bind fun _ _ => spare_carries.bind fun _ _ =>
    applicationId_carries.on.bind fun _ _ => rest_closes.on.returning) (by omega) rfl

theorem acknowledgement_carries {s : Acknowledgement} : Carries acknowledgement p s 32 s :=
  word32_carries.on.bind fun _ _ => word8_carries.on.bind fun _ _ => .pure _

theorem acknowledge_closes {m : Acknowledge} :
    Closes acknowledge p m (34 + 32 * m.acknowledgements.length) 0 (· < 32) m :=
  .cast (header_carries.on.bind fun _ _ => spare_carries.bind fun _ _ =>
    (entries_closes (by decide) fun _ _ => acknowledgement_carries).on.returning) (by omega) rfl

theorem binaryBroadcast_closes {m : BinaryBroadcast} :
    Closes binaryBroadcast p m (50 + m.data.length) 0 (· = 0) m :=
  .cast (header_carries.on.bind fun _ _ => spare_carries.bind fun _ _ =>
    applicationId_carries.on.bind fun _ _ => rest_closes.on.returning) (by omega) rfl

theorem addressedSafety_closes {m : AddressedSafety} :
    Closes addressedSafety p m (66 + 6 * min m.text.length 156) 0 (· < 6) m.normalised :=
  .cast (header_carries.on.bind fun _ _ => word8_carries.on.bind fun _ _ =>
    word32_carries.on.bind fun _ _ => flag_carries.on.bind fun _ _ => spare_carries.bind fun _ _ =>
    textRun_closes.on.returning) (by simp only [addressedSafetyLength]; omega) rfl

theorem safetyBroadcast_closes {m : SafetyBroadcast} :
    Closes safetyBroadcast p m (34 + 6 * min m.text.length 161) 0 (· < 6) m.normalised :=
  .cast (header_carries.on.bind fun _ _ => spare_carries.bind fun _ _ =>
    textRun_closes.on.returning) (by simp only [safetyBroadcastLength]; omega) rfl

theorem dgnssBroadcast_closes {m : DgnssBroadcast} :
    Closes dgnssBroadcast p m (74 + m.data.length) 0 (· = 0) m.normalised :=
  .cast (header_carries.on.bind fun _ _ => spare_carries.bind fun _ _ =>
    longitude_carries.on.bind fun _ _ => latitude_carries.on.bind fun _ _ =>
    spare_carries.bind fun _ _ => rest_closes.on.returning) (by omega) rfl

/-- The width of the station and of the application in front of data. -/
def recipientWidth (s : Option Mmsi × Option ApplicationId) : Nat :=
  2 + 30 * s.1.isSome.toNat + 16 * s.2.isSome.toNat

theorem recipient_carries {s : Option Mmsi × Option ApplicationId} :
    Carries recipient p s (recipientWidth s) s := by
  refine Closes.cast (n := 1 + (1 + (30 * s.1.isSome.toNat + (16 * s.2.isSome.toNat + 0))))
    (flag_carries.on.bind (c := fun _ => s) fun addressed ha =>
      flag_carries.on.bind (c := fun _ => s) fun structured hs => ?_)
    (by simp only [recipientWidth]; omega) rfl
  subst ha hs
  exact (whenPresent_carries (fun _ => word32_carries) s.1).on.bind fun _ _ =>
    (whenPresent_carries (fun _ => applicationId_carries) s.2).on.bind fun _ _ => .pure _

theorem singleSlotBinary_closes {m : SingleSlotBinary} :
    Closes singleSlotBinary p m
      (32 + (recipientWidth (m.destination, m.application) + m.data.length)) 0 (· = 0) m := by
  have hr : Carries (recipient.on fun m : SingleSlotBinary => (m.destination, m.application))
      (p + 32) m (recipientWidth (m.destination, m.application)) (m.destination, m.application) :=
    recipient_carries.on
  have hd : ∀ p, Closes (rest.on SingleSlotBinary.data) p m m.data.length 0 (· = 0) m.data :=
    fun _ => rest_closes.on
  exact header_carries.on.bind fun _ _ => hr.bind fun _ _ => (hd _).bindLast
    (fun _ _ => checked_carries.returning.mono fun _ _ => trivial) fun _ h => by omega

theorem multipleSlotBinary_closes {m : MultipleSlotBinary} :
    Closes multipleSlotBinary p m
      (32 + (recipientWidth (m.destination, m.application) + (m.data.length + 20))) 0 (· = 0) m := by
  have hr : Carries (recipient.on fun m : MultipleSlotBinary => (m.destination, m.application))
      (p + 32) m (recipientWidth (m.destination, m.application)) (m.destination, m.application) :=
    recipient_carries.on
  have hd : ∀ p, Closes ((restBefore 20).on MultipleSlotBinary.data) p m m.data.length 0 (· = 20)
      m.data :=
    fun _ => restBefore_closes.on
  exact header_carries.on.bind fun _ _ => hr.bind fun _ _ => (hd _).bindLast
    (fun _ _ => word32_carries.on.returning.mono fun _ _ => trivial) fun _ h => by omega

/-! ## How the radio link is run -/

theorem utcInquiry_carries {m : UtcInquiry} : Closes utcInquiry p m 64 2 (fun _ => True) m :=
  header_carries.on.bind fun _ _ => spare_carries.bind fun _ _ =>
  word32_carries.on.bind fun _ _ => (filling_closes fun _ _ => rfl).returning

theorem slotRequest_carries {s : SlotRequest} : Carries slotRequest p s 18 s :=
  word8_carries.on.bind fun _ _ => word16_carries.on.bind fun _ _ => .pure _

theorem secondRequest_carries {s : SlotRequest} : Carries secondRequest p s 22 s :=
  spare_carries.bind fun _ _ => slotRequest_carries.bind fun _ _ => spare_carries.bind fun _ _ =>
  .pure _

theorem secondInterrogation_carries {s : SecondInterrogation} :
    Carries secondInterrogation p s 50 s :=
  word32_carries.on.bind fun _ _ => slotRequest_carries.on.bind fun _ _ =>
  spare_carries.bind fun _ _ => .pure _

theorem writtenSecondRequest_carries {m : Interrogation} {s : SlotRequest}
    (hs : writtenSecondRequest m = some s) (hp : 110 ≤ p + 22) :
    Carries ((whenLength 110 secondRequest).on writtenSecondRequest) p m 22 (some s) :=
  Closes.on (by rw [hs]; exact whenLength_carries_some secondRequest_carries hp)

theorem writtenSecondRequest_closes {m : Interrogation} (hs : writtenSecondRequest m = none) :
    Closes ((whenLength 110 secondRequest).on writtenSecondRequest) p m 0 0 (p + · < 110) none :=
  Closes.on (by rw [hs]; exact whenLength_closes_none)

theorem second_carries {m : Interrogation} {s : SecondInterrogation} (hs : m.second = some s)
    (hp : 160 ≤ p + 50) :
    Carries ((whenLength 160 secondInterrogation).on Interrogation.second) p m 50 (some s) :=
  Closes.on (by rw [hs]; exact whenLength_carries_some secondInterrogation_carries hp)

theorem second_closes {m : Interrogation} (hs : m.second = none) :
    Closes ((whenLength 160 secondInterrogation).on Interrogation.second) p m 0 0 (p + · < 160)
      none :=
  Closes.on (by rw [hs]; exact whenLength_closes_none)

/-- What type 15 has behind the first request if there is no other. -/
theorem interrogation_closes_one {m : Interrogation} (h₁ : writtenSecondRequest m = none)
    (h₂ : m.second = none) :
    Closes interrogation 6 m 82 0 (· < 6) { m with secondRequest := none, second := none } :=
  header_carries.on.bind fun _ _ => spare_carries.bind fun _ _ => word32_carries.on.bind fun _ _ =>
  slotRequest_carries.on.bind fun _ _ => (writtenSecondRequest_closes h₁).bindLast
    (fun _ _ => (second_closes h₂).returning.mono
      fun t (ht : t < 6) => show 88 + t < 160 by omega)
    fun t (ht : t < 6) => show 88 + (0 + 0 + t) < 110 by omega

theorem interrogation_closes_two {m : Interrogation} {s : SlotRequest}
    (h₁ : writtenSecondRequest m = some s) (h₂ : m.second = none) :
    Closes interrogation 6 m 104 0 (· < 6) { m with secondRequest := some s, second := none } :=
  header_carries.on.bind fun _ _ => spare_carries.bind fun _ _ => word32_carries.on.bind fun _ _ =>
  slotRequest_carries.on.bind fun _ _ =>
  (writtenSecondRequest_carries h₁ (by decide)).bind fun _ _ => (second_closes h₂).returning.mono
    fun t (ht : t < 6) => show 110 + t < 160 by omega

theorem interrogation_closes_three {m : Interrogation} {s : SlotRequest} {t : SecondInterrogation}
    (h₁ : writtenSecondRequest m = some s) (h₂ : m.second = some t) :
    Closes interrogation 6 m 154 0 (· < 6) { m with secondRequest := some s, second := some t } :=
  header_carries.on.bind fun _ _ => spare_carries.bind fun _ _ => word32_carries.on.bind fun _ _ =>
  slotRequest_carries.on.bind fun _ _ =>
  (writtenSecondRequest_carries h₁ (by decide)).bind fun _ _ =>
  (second_carries h₂ (by decide)).bind fun _ _ => .pure _

/-- The width of type 15, by which of its last two parts it has. -/
def interrogationWidth (m : Interrogation) : Nat :=
  match m.secondRequest, m.second with
  | none, none => 82
  | some _, none => 104
  | _, some _ => 154

theorem interrogation_closes {m : Interrogation} :
    Closes interrogation 6 m (interrogationWidth m) 0 (· < 6) m.normalised := by
  obtain ⟨header, mmsi, firstRequest, secondRequest, second⟩ := m
  match secondRequest, second with
  | none, none => exact interrogation_closes_one rfl rfl
  | some _, none => exact interrogation_closes_two rfl rfl
  | none, some _ => exact interrogation_closes_three rfl rfl
  | some _, some _ => exact interrogation_closes_three rfl rfl

theorem slotAssignment_carries {s : SlotAssignment} : Carries slotAssignment p s 52 s :=
  word32_carries.on.bind fun _ _ => word16_carries.on.bind fun _ _ =>
  word16_carries.on.bind fun _ _ => .pure _

theorem assignmentModeCommand_closes {m : AssignmentModeCommand} :
    Closes assignmentModeCommand p m (34 + 52 * m.assignments.length)
      (if m.assignments.length = 1 then 4 else 0) (· < 6) m := by
  have he : ∀ p, Closes ((entries "assignments" "1 or 2" 52 2 slotAssignment).on
      AssignmentModeCommand.assignments) p m (52 * m.assignments.length) 0 (· < 52) m.assignments :=
    fun _ => (entries_closes (by decide) fun _ _ => slotAssignment_carries).on
  refine .cast (n := 32 + (2 + (52 * m.assignments.length + 0))) (header_carries.on.bind fun _ _ =>
    spare_carries.bind fun _ _ => (he _).bindLast
      (fun _ _ => (filling_closes fun _ _ => rfl).returning) fun _ h => ?_) (by omega) rfl
  split <;> omega

theorem slotReservation_carries {s : SlotReservation} : Carries slotReservation p s 30 s :=
  word16_carries.on.bind fun _ _ => word8_carries.on.bind fun _ _ =>
  word8_carries.on.bind fun _ _ => word16_carries.on.bind fun _ _ => .pure _

/-- The bits up to the next byte behind so many reservations. -/
def reservationFilling (count : Nat) : Nat :=
  (8 - (40 + 30 * count) % 8) % 8

theorem dataLinkManagement_closes {m : DataLinkManagement} :
    Closes dataLinkManagement 6 m (34 + 30 * m.reservations.length)
      (reservationFilling m.reservations.length) (· < 6) m := by
  have he : ∀ p, Closes ((entries "reservations" "1 to 4" 30 4 slotReservation).on
      DataLinkManagement.reservations) p m (30 * m.reservations.length) 0 (· < 30) m.reservations :=
    fun _ => (entries_closes (by decide) fun _ _ => slotReservation_carries).on
  refine .cast (n := 32 + (2 + (30 * m.reservations.length + 0))) (header_carries.on.bind fun _ _ =>
    spare_carries.bind fun _ _ => (he _).bindLast
      (fun _ _ => (filling_closes fun w hw => ?_).returning) fun _ h => ?_) (by omega) rfl
  · rw [Writer.bitsToByte, hw, reservationFilling]
  · rw [reservationFilling]
    omega

theorem region_carries {s : Region} : Carries region p s 70 s.normalised := by
  -- The value is left open, so that unification does not compare it field by field on the way.
  have h : Carries region p s 70 _ :=
    (coordinate_carries .longitude 18).on.bind fun _ _ =>
    (coordinate_carries .latitude 17).on.bind fun _ _ =>
    (coordinate_carries .longitude 18).on.bind fun _ _ =>
    (coordinate_carries .latitude 17).on.bind fun _ _ => .pure _
  exact h

theorem addressedArea_carries {s : Mmsi × Mmsi} :
    Carries addressedArea p s 71 (.addressed s.1 s.2) :=
  word32_carries.on.bind fun _ _ => spare_carries.bind fun _ _ => word32_carries.on.bind fun _ _ =>
  spare_carries.bind fun _ _ => fixedFlag_carries.bind fun _ _ => .pure _

theorem regionArea_carries {s : Region} : Carries regionArea p s 71 (.region s.normalised) :=
  region_carries.bind fun _ _ => fixedFlag_carries.bind fun _ _ => .pure _

/-- The flag that was written last is found at its offset. -/
theorem flagAt_of_isPrefix {v : Writer} {x : Bool} {b : Bits}
    (hb : (v.flag x).bits.toList <+: b.toList) : b.flagAt v.bits.length = .ok x := by
  have hx := Bits.window_of_isPrefix (Bits.toList_push v.bits x) hb
  have hle := Bits.length_le_of_isPrefix hb
  rw [Bits.length_toList] at hx
  have hbit : b.bit v.bits.length = x := by simpa [Bits.window] using hx
  rw [Bits.flagAt_eq_ok hle, hbit]

theorem addressedArea_write {s : Mmsi × Mmsi} {w w' : Writer} {a : ChannelArea}
    (h : addressedArea.write s w = .ok (a, w')) : ∃ v : Writer, w' = v.flag true := by
  obtain ⟨_, _, -, h⟩ := write_bind h
  obtain ⟨_, _, -, h⟩ := write_bind h
  obtain ⟨_, _, -, h⟩ := write_bind h
  obtain ⟨_, v, -, h⟩ := write_bind h
  cases h
  exact ⟨v, rfl⟩

theorem regionArea_write {s : Region} {w w' : Writer} {a : ChannelArea}
    (h : regionArea.write s w = .ok (a, w')) : ∃ v : Writer, w' = v.flag false := by
  obtain ⟨_, v, -, h⟩ := write_bind h
  cases h
  exact ⟨v, rfl⟩

/-- An area is read as the kind that the flag at its end says. -/
theorem Kept.channelArea {l : Layout σ ChannelArea} {w v : Writer} {x : Bool} {a : ChannelArea}
    (hk : Kept l w (v.flag x) 71 0 (fun _ => True) a) (hp : w.bits.length = 69)
    (hr : l.read = if x then addressedArea.read else regionArea.read) :
    Kept channelArea w (v.flag x) 71 0 (fun _ => True) a := by
  refine ⟨hk.grows, hk.length, fun b hb ht => ?_⟩
  have hv : v.bits.length = 139 := by
    have hlen := hk.length
    change v.bits.length + 1 = _ at hlen
    omega
  have hf := flagAt_of_isPrefix hb
  rw [hv] at hf
  have hread := hk.reads b hb ht
  rw [hr] at hread
  show (b.flagAt 139 >>= _) = _
  rw [hf]
  cases x <;> exact hread

theorem channelArea_carries {s : ChannelArea} (hp : p = 69) :
    Carries channelArea p s 71 s.normalised := by
  subst hp
  rintro w a' w' hp h
  cases s with
  | addressed first second =>
    obtain ⟨v, rfl⟩ := addressedArea_write h
    obtain ⟨rfl, hk⟩ := addressedArea_carries w a' _ hp h
    exact ⟨rfl, hk.channelArea hp rfl⟩
  | region corners =>
    obtain ⟨v, rfl⟩ := regionArea_write h
    obtain ⟨rfl, hk⟩ := regionArea_carries w a' _ hp h
    exact ⟨rfl, hk.channelArea hp rfl⟩

theorem channelManagement_carries {m : ChannelManagement} :
    Carries channelManagement 6 m 162 m.normalised :=
  header_carries.on.bind fun _ _ => spare_carries.bind fun _ _ => word16_carries.on.bind fun _ _ =>
  word16_carries.on.bind fun _ _ => word8_carries.on.bind fun _ _ => flag_carries.on.bind fun _ _ =>
  (channelArea_carries (by rfl)).on.bind fun _ _ => flag_carries.on.bind fun _ _ =>
  flag_carries.on.bind fun _ _ => word8_carries.on.bind fun _ _ => spare_carries.bind fun _ _ =>
  .pure _

theorem groupAssignmentCommand_carries {m : GroupAssignmentCommand} :
    Carries groupAssignmentCommand p m 154 m.normalised :=
  header_carries.on.bind fun _ _ => spare_carries.bind fun _ _ => region_carries.on.bind fun _ _ =>
  word8_carries.on.bind fun _ _ => word8_carries.on.bind fun _ _ => spare_carries.bind fun _ _ =>
  word8_carries.on.bind fun _ _ => word8_carries.on.bind fun _ _ => word8_carries.on.bind fun _ _ =>
  spare_carries.bind fun _ _ => .pure _

end Transponder.Layout

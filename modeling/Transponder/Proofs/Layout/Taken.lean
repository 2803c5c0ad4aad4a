import Transponder.Proofs.Layout.Carried
import Transponder.Proofs.Layout.Takes

/-!
# What the layouts of messages take

Every layout of a message demands what its record lists, and takes a width that the record tells:
from the number of its entries, from the parts that are there, and from the texts and the data at the
end. The two layouts that look at what has been written so far, types 20 and 25, are behind the six
bits of the type.
-/

namespace Transponder.Layout

open Demand

variable {p : Nat}

/-! ## Parts -/

theorem header_takes {s : Header} : Takes header p s s.demands 32 :=
  .width (word8_takes.on.bind fun _ => word32_takes.on.bind fun _ => .pure _) rfl

theorem dimensions_takes {s : Dimensions} : Takes dimensions p s s.demands 30 :=
  .width (word16_takes.on.bind fun _ => word16_takes.on.bind fun _ => word8_takes.on.bind fun _ =>
    word8_takes.on.bind fun _ => .pure _) rfl

/-! ## Where a station is -/

theorem positionReport_takes {m : PositionReport} : Takes positionReport p m m.demands 162 :=
  .width (header_takes.on.bind fun _ => coded_takes.on.bind fun _ =>
    rateOfTurn_takes.on.bind fun _ => speed_takes.on.bind fun _ => flag_takes.on.bind fun _ =>
    longitude_takes.on.bind fun _ => latitude_takes.on.bind fun _ => course_takes.on.bind fun _ =>
    word16_takes.on.bind fun _ => word8_takes.on.bind fun _ => coded_takes.on.bind fun _ =>
    spare_takes.bind fun _ => flag_takes.on.bind fun _ => word32_takes.on.bind fun _ => .pure _) rfl

theorem baseStationReport_takes {m : BaseStationReport} :
    Takes baseStationReport p m m.demands 162 :=
  .width (header_takes.on.bind fun _ => word16_takes.on.bind fun _ => word8_takes.on.bind fun _ =>
    word8_takes.on.bind fun _ => word8_takes.on.bind fun _ => word8_takes.on.bind fun _ =>
    word8_takes.on.bind fun _ => flag_takes.on.bind fun _ => longitude_takes.on.bind fun _ =>
    latitude_takes.on.bind fun _ => coded_takes.on.bind fun _ => spare_takes.bind fun _ =>
    flag_takes.on.bind fun _ => word32_takes.on.bind fun _ => .pure _) rfl

theorem sarAircraftReport_takes {m : SarAircraftReport} :
    Takes sarAircraftReport p m m.demands 162 :=
  .width (header_takes.on.bind fun _ => word16_takes.on.bind fun _ => word16_takes.on.bind fun _ =>
    flag_takes.on.bind fun _ => longitude_takes.on.bind fun _ => latitude_takes.on.bind fun _ =>
    course_takes.on.bind fun _ => word8_takes.on.bind fun _ => word8_takes.on.bind fun _ =>
    flag_takes.on.bind fun _ => spare_takes.bind fun _ => flag_takes.on.bind fun _ =>
    flag_takes.on.bind fun _ => word32_takes.on.bind fun _ => .pure _) rfl

theorem classBPositionReport_takes {m : ClassBPositionReport} :
    Takes classBPositionReport p m m.demands 162 :=
  .width (header_takes.on.bind fun _ => word8_takes.on.bind fun _ => speed_takes.on.bind fun _ =>
    flag_takes.on.bind fun _ => longitude_takes.on.bind fun _ => latitude_takes.on.bind fun _ =>
    course_takes.on.bind fun _ => word16_takes.on.bind fun _ => word8_takes.on.bind fun _ =>
    word8_takes.on.bind fun _ => flag_takes.on.bind fun _ => flag_takes.on.bind fun _ =>
    flag_takes.on.bind fun _ => flag_takes.on.bind fun _ => flag_takes.on.bind fun _ =>
    flag_takes.on.bind fun _ => flag_takes.on.bind fun _ => word32_takes.on.bind fun _ =>
    .pure _) rfl

theorem extendedClassBReport_takes {m : ExtendedClassBReport} :
    Takes extendedClassBReport p m m.demands 306 :=
  .width (header_takes.on.bind fun _ => word8_takes.on.bind fun _ => speed_takes.on.bind fun _ =>
    flag_takes.on.bind fun _ => longitude_takes.on.bind fun _ => latitude_takes.on.bind fun _ =>
    course_takes.on.bind fun _ => word16_takes.on.bind fun _ => word8_takes.on.bind fun _ =>
    word8_takes.on.bind fun _ => (text_takes 20).on.bind fun _ => word8_takes.on.bind fun _ =>
    dimensions_takes.on.bind fun _ => coded_takes.on.bind fun _ => flag_takes.on.bind fun _ =>
    flag_takes.on.bind fun _ => flag_takes.on.bind fun _ => spare_takes.bind fun _ => .pure _) rfl

theorem longRangeReport_takes {m : LongRangeReport} : Takes longRangeReport p m m.demands 90 :=
  .width (header_takes.on.bind fun _ => flag_takes.on.bind fun _ => flag_takes.on.bind fun _ =>
    coded_takes.on.bind fun _ => longitude_takes.on.bind fun _ => latitude_takes.on.bind fun _ =>
    word8_takes.on.bind fun _ => word16_takes.on.bind fun _ => flag_takes.on.bind fun _ =>
    spare_takes.bind fun _ => .pure _) rfl

/-! ## Ships and marks -/

theorem arrival_takes {s : Arrival} : Takes arrival p s s.demands 20 :=
  .width (word8_takes.on.bind fun _ => word8_takes.on.bind fun _ => word8_takes.on.bind fun _ =>
    word8_takes.on.bind fun _ => .pure _) rfl

theorem destination_takes {s : String × Bool} : Takes destination p s [] 121 := by
  have hfull : Takes fullDestination p s [] 121 :=
    .width ((text_takes 20).on.bind fun _ => flag_takes.on.bind fun _ => .pure _) rfl
  exact hfull.congr rfl

theorem staticVoyageData_takes {m : StaticVoyageData} :
    Takes staticVoyageData p m m.demands 418 :=
  .width (header_takes.on.bind fun _ => word8_takes.on.bind fun _ => word32_takes.on.bind fun _ =>
    (text_takes 7).on.bind fun _ => (text_takes 20).on.bind fun _ => word8_takes.on.bind fun _ =>
    dimensions_takes.on.bind fun _ => coded_takes.on.bind fun _ => arrival_takes.on.bind fun _ =>
    draught_takes.on.bind fun _ => destination_takes.on.bind fun _ =>
    (filling_takes fun _ _ => rfl).bind fun _ => .pure _) rfl

theorem aidToNavigationReport_takes {m : AidToNavigationReport} :
    Takes aidToNavigationReport p m m.demands (266 + 6 * min m.nameExtension.length 14) :=
  .width (header_takes.on.bind fun _ => word8_takes.on.bind fun _ =>
    (text_takes 20).on.bind fun _ => flag_takes.on.bind fun _ => longitude_takes.on.bind fun _ =>
    latitude_takes.on.bind fun _ => dimensions_takes.on.bind fun _ => coded_takes.on.bind fun _ =>
    word8_takes.on.bind fun _ => flag_takes.on.bind fun _ => word8_takes.on.bind fun _ =>
    flag_takes.on.bind fun _ => flag_takes.on.bind fun _ => flag_takes.on.bind fun _ =>
    spare_takes.bind fun _ => textRun_takes.on.bind fun _ => .pure _)
    (by simp only [nameExtensionLength]; omega)

/-- A reference of the right kind is written as what it is. -/
theorem reference_takes {sender : Mmsi} {s : ShipReference} :
    Takes (reference sender) p s (s.demands sender) 30 := by
  by_cases haux : isAuxiliaryCraft sender = true
  · rw [reference, if_pos haux]
    cases s with
    | mothership mmsi =>
      have h : Takes ((word32 "mothership_mmsi" 30).mapped ShipReference.mothership) p mmsi
        [.number "mothership_mmsi" mmsi.toNat 30] 30 := word32_takes.mapped
      have hwritten : Takes (mothership sender) p (.mothership mmsi) _ 30 := h.congr rfl
      exact hwritten.met (if_pos haux)
    | dimensions size => exact takes_of_error (if_pos haux) fun w => rfl
  · rw [reference, if_neg haux]
    cases s with
    | mothership mmsi => exact takes_of_error (if_neg haux) fun w => rfl
    | dimensions size =>
      have h : Takes (dimensions.mapped ShipReference.dimensions) p size size.demands 30 :=
        dimensions_takes.mapped
      have hwritten : Takes (ownSize sender) p (.dimensions size) _ 30 := h.congr rfl
      exact hwritten.met (if_neg haux)

theorem equipment_takes {sender : Mmsi} {s : Equipment} :
    Takes (equipment sender) p s (s.demands sender) 128 :=
  .cast (word8_takes.on.bind fun _ => (text_takes 3).on.bind fun _ => word8_takes.on.bind fun _ =>
    word32_takes.on.bind fun _ => (text_takes 7).on.bind fun _ => reference_takes.on.bind fun _ =>
    (filling_takes fun _ _ => rfl).returning) (by simp [Equipment.demands]) fun _ => rfl

/-- What follows the number of a part. -/
def partBody (sender : Mmsi) : Layout StaticDataPart StaticDataPart where
  read := (staticDataPart sender).read
  write
    | .a vesselName => ((text 20).mapped StaticDataPart.a).write vesselName
    | .b equip => ((equipment sender).mapped StaticDataPart.b).write equip

/-- A part with its number, as it is written. -/
def numberedPart (sender : Mmsi) : Layout StaticDataPart StaticDataPart := do
  let _ ← (uint "part_number" 2).on StaticDataPart.number
  partBody sender

/-- The width of a part of type 24 with its number. -/
def partLength : StaticDataPart → Nat
  | .a _ => 122
  | .b _ => 130

theorem staticDataPart_takes {sender : Mmsi} {s : StaticDataPart} :
    Takes (staticDataPart sender) p s (s.demands sender) (partLength s) := by
  cases s with
  | a vesselName =>
    have h : Takes ((text 20).mapped StaticDataPart.a) (p + 2) vesselName [] 120 :=
      (text_takes 20).mapped
    have hnumbered : Takes (numberedPart sender) p (.a vesselName)
        ([.number "part_number" 0 2] ++ []) (2 + 120) :=
      uint_takes.on.bind fun _ => h.congr rfl
    exact hnumbered.congr rfl
  | b equip =>
    have h : Takes ((equipment sender).mapped StaticDataPart.b) (p + 2) equip
      (equip.demands sender) 128 := equipment_takes.mapped
    have hnumbered : Takes (numberedPart sender) p (.b equip)
        ([.number "part_number" 1 2] ++ equip.demands sender) (2 + 128) :=
      uint_takes.on.bind fun _ => h.congr rfl
    exact hnumbered.congr rfl

theorem staticDataReport_takes {m : StaticDataReport} :
    Takes staticDataReport p m m.demands (32 + partLength m.part) := by
  refine header_takes.on.bindAnswer fun header w w' hw => ?_
  have hheader : header = m.header := (header_carries w header w' rfl hw).1
  subst hheader
  exact staticDataPart_takes.on.returning

/-! ## What a station sends to others -/

theorem applicationId_takes {s : ApplicationId} : Takes applicationId p s s.demands 16 :=
  .width (word16_takes.on.bind fun _ => word8_takes.on.returning) rfl

theorem addressedBinary_takes {m : AddressedBinary} :
    Takes addressedBinary p m m.demands (82 + m.data.length) :=
  .width (header_takes.on.bind fun _ => word8_takes.on.bind fun _ =>
    word32_takes.on.bind fun _ => flag_takes.on.bind fun _ => spare_takes.bind fun _ =>
    applicationId_takes.on.bind fun _ => rest_takes.on.returning) (by omega)

theorem acknowledgement_takes {s : Acknowledgement} : Takes acknowledgement p s s.demands 32 :=
  .width (word32_takes.on.bind fun _ => word8_takes.on.returning) rfl

theorem acknowledge_takes {m : Acknowledge} :
    Takes acknowledge p m m.demands (34 + 32 * m.acknowledgements.length) :=
  .width (header_takes.on.bind fun _ => spare_takes.bind fun _ =>
    (entries_takes fun _ _ => acknowledgement_takes).on.returning) (by omega)

theorem binaryBroadcast_takes {m : BinaryBroadcast} :
    Takes binaryBroadcast p m m.demands (50 + m.data.length) :=
  .width (header_takes.on.bind fun _ => spare_takes.bind fun _ =>
    applicationId_takes.on.bind fun _ => rest_takes.on.returning) (by omega)

theorem addressedSafety_takes {m : AddressedSafety} :
    Takes addressedSafety p m m.demands (66 + 6 * min m.text.length 156) :=
  .width (header_takes.on.bind fun _ => word8_takes.on.bind fun _ =>
    word32_takes.on.bind fun _ => flag_takes.on.bind fun _ => spare_takes.bind fun _ =>
    textRun_takes.on.returning) (by simp only [addressedSafetyLength]; omega)

theorem safetyBroadcast_takes {m : SafetyBroadcast} :
    Takes safetyBroadcast p m m.demands (34 + 6 * min m.text.length 161) :=
  .width (header_takes.on.bind fun _ => spare_takes.bind fun _ =>
    textRun_takes.on.returning) (by simp only [safetyBroadcastLength]; omega)

theorem dgnssBroadcast_takes {m : DgnssBroadcast} :
    Takes dgnssBroadcast p m m.demands (74 + m.data.length) :=
  .width (header_takes.on.bind fun _ => spare_takes.bind fun _ => longitude_takes.on.bind fun _ =>
    latitude_takes.on.bind fun _ => spare_takes.bind fun _ => rest_takes.on.returning) (by omega)

theorem recipient_takes {s : Option Mmsi × Option ApplicationId} :
    Takes recipient p s (recipientDemands s.1 s.2) (recipientLength s.1 s.2) :=
  .width (flag_takes.on.bind fun _ => flag_takes.on.bind fun _ =>
    (whenPresent_takes fun _ => word32_takes).on.bind fun _ =>
    (whenPresent_takes fun _ => applicationId_takes).on.returning)
    (by simp only [recipientLength]; omega)

theorem singleSlotBinary_takes {m : SingleSlotBinary} :
    Takes singleSlotBinary 6 m m.demands
      (32 + recipientLength m.destination m.application + m.data.length) := by
  refine .cast (header_takes.on.bind fun _ => recipient_takes.on.bind fun ⟨_, _⟩ =>
    rest_takes.on.bind fun _ => (checked_takes fun w hw => ?_).returning) rfl fun _ => ?_
  · dsimp only at hw
    rw [show w.bits.length = 38 + recipientLength m.destination m.application + m.data.length by
      omega, refusal?]
    split <;> rfl
  · dsimp only
    omega

theorem multipleSlotBinary_takes {m : MultipleSlotBinary} :
    Takes multipleSlotBinary p m m.demands
      (52 + recipientLength m.destination m.application + m.data.length) :=
  .width (header_takes.on.bind fun _ => recipient_takes.on.bind fun ⟨_, _⟩ =>
    restBefore_takes.on.bind fun _ => word32_takes.on.returning) (by dsimp only; omega)

/-! ## How the radio link is run -/

theorem utcInquiry_takes {m : UtcInquiry} : Takes utcInquiry p m m.demands 66 :=
  .width (header_takes.on.bind fun _ => spare_takes.bind fun _ => word32_takes.on.bind fun _ =>
    (filling_takes fun _ _ => rfl).returning) rfl

theorem slotRequest_takes {s : SlotRequest} : Takes slotRequest p s s.demands 18 :=
  .width (word8_takes.on.bind fun _ => word16_takes.on.returning) rfl

theorem secondRequest_takes {s : SlotRequest} : Takes secondRequest p s s.demands 22 :=
  .width (spare_takes.bind fun _ => slotRequest_takes.bind fun _ => spare_takes.returning) rfl

theorem secondInterrogation_takes {s : SecondInterrogation} :
    Takes secondInterrogation p s s.demands 50 :=
  .width (word32_takes.on.bind fun _ => slotRequest_takes.on.bind fun _ => spare_takes.returning) rfl

/-- A second request full of zeros, which is written in front of a second station, is never
refused. -/
theorem firstRefusal?_writtenSecondRequest (m : Interrogation) :
    firstRefusal? ((writtenSecondRequest m).elim [] SlotRequest.demands) =
      firstRefusal? (m.secondRequest.elim [] SlotRequest.demands) := by
  obtain ⟨_, _, _, secondRequest, second⟩ := m
  cases secondRequest <;> cases second <;> rfl

theorem interrogation_takes {m : Interrogation} :
    Takes interrogation p m m.demands (82 + 22 * (writtenSecondRequest m).isSome.toNat +
      50 * m.second.isSome.toNat) := by
  refine .cast (header_takes.on.bind fun _ => spare_takes.bind fun _ =>
    word32_takes.on.bind fun _ => slotRequest_takes.on.bind fun _ =>
    (whenLength_takes fun _ => secondRequest_takes).on.bind fun _ =>
    (whenLength_takes fun _ => secondInterrogation_takes).on.returning) ?_ fun _ => ?_
  · simp only [Interrogation.demands, firstRefusal?_append, firstRefusal?_writtenSecondRequest,
      List.nil_append]
  · omega

theorem slotAssignment_takes {s : SlotAssignment} : Takes slotAssignment p s s.demands 52 :=
  .width (word32_takes.on.bind fun _ => word16_takes.on.bind fun _ =>
    word16_takes.on.returning) rfl

theorem assignmentModeCommand_takes {m : AssignmentModeCommand} :
    Takes assignmentModeCommand p m m.demands (34 + 52 * m.assignments.length +
      if m.assignments.length = 1 then 4 else 0) :=
  .cast (header_takes.on.bind fun _ => spare_takes.bind fun _ =>
    (entries_takes fun _ _ => slotAssignment_takes).on.bind fun _ =>
    (filling_takes fun _ _ => rfl).returning) (by simp [AssignmentModeCommand.demands])
    fun _ => by omega

theorem slotReservation_takes {s : SlotReservation} : Takes slotReservation p s s.demands 30 :=
  .width (word16_takes.on.bind fun _ => word8_takes.on.bind fun _ => word8_takes.on.bind fun _ =>
    word16_takes.on.returning) rfl

theorem dataLinkManagement_takes {m : DataLinkManagement} :
    Takes dataLinkManagement 6 m m.demands (34 + 30 * m.reservations.length +
      reservationFilling m.reservations.length) := by
  have hfill : ∀ w : Writer, w.bits.length = 6 + 32 + 2 + 30 * m.reservations.length →
      w.bitsToByte = reservationFilling m.reservations.length := by
    intro w hw
    rw [Writer.bitsToByte, hw, reservationFilling]
  exact .cast (header_takes.on.bind fun _ => spare_takes.bind fun _ =>
    (entries_takes fun _ _ => slotReservation_takes).on.bind fun _ =>
    (filling_takes hfill).returning) (by simp [DataLinkManagement.demands]) fun _ => by omega

theorem region_takes {s : Region} : Takes region p s s.demands 70 :=
  .width (coordinate_takes.on.bind fun _ => coordinate_takes.on.bind fun _ =>
    coordinate_takes.on.bind fun _ => coordinate_takes.on.returning) rfl

theorem addressedArea_takes {s : Mmsi × Mmsi} :
    Takes addressedArea p s (ChannelArea.addressed s.1 s.2).demands 71 :=
  .width (word32_takes.on.bind fun _ => spare_takes.bind fun _ => word32_takes.on.bind fun _ =>
    spare_takes.bind fun _ => fixedFlag_takes.returning) rfl

theorem regionArea_takes {s : Region} : Takes regionArea p s s.demands 71 :=
  .width (region_takes.bind fun _ => fixedFlag_takes.returning) rfl

theorem channelArea_takes {s : ChannelArea} : Takes channelArea p s s.demands 71 := by
  cases s with
  | addressed first second =>
    have h : Takes addressedArea p (first, second) _ 71 := addressedArea_takes
    exact h.congr rfl
  | region corners =>
    have h : Takes regionArea p corners _ 71 := regionArea_takes
    exact h.congr rfl

theorem channelManagement_takes {m : ChannelManagement} :
    Takes channelManagement p m m.demands 162 :=
  .width (header_takes.on.bind fun _ => spare_takes.bind fun _ => word16_takes.on.bind fun _ =>
    word16_takes.on.bind fun _ => word8_takes.on.bind fun _ => flag_takes.on.bind fun _ =>
    channelArea_takes.on.bind fun _ => flag_takes.on.bind fun _ => flag_takes.on.bind fun _ =>
    word8_takes.on.bind fun _ => spare_takes.returning) rfl

theorem groupAssignmentCommand_takes {m : GroupAssignmentCommand} :
    Takes groupAssignmentCommand p m m.demands 154 :=
  .width (header_takes.on.bind fun _ => spare_takes.bind fun _ => region_takes.on.bind fun _ =>
    word8_takes.on.bind fun _ => word8_takes.on.bind fun _ => spare_takes.bind fun _ =>
    word8_takes.on.bind fun _ => word8_takes.on.bind fun _ => word8_takes.on.bind fun _ =>
    spare_takes.returning) rfl

end Transponder.Layout

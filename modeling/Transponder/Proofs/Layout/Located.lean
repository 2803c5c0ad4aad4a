import Transponder.Proofs.Layout.Offsets
import Transponder.Proofs.Layout.Reads

/-!
# Layouts read the fields at their offsets

Each layout of a message, read from behind the number of its type, gives what the published table of
offsets gives, and accepts a sequence exactly if it has the least length of the type. A layout of
fixed width is a chain of fields whose widths add up to the offsets of the table; a layout whose
length depends on the message needs the cases of its length or of its flags first.
-/

namespace Transponder.Layout

variable {α σ : Type} {b : Bits} {p : Nat}

/-! ## Parts -/

theorem word8_reads {field : String} {width : Nat} :
    Reads b (word8 field width).read p width (b.word8At p width) :=
  uint_reads.on.bind fun _ _ => .pure _

theorem word16_reads {field : String} {width : Nat} :
    Reads b (word16 field width).read p width (b.word16At p width) :=
  uint_reads.on.bind fun _ _ => .pure _

theorem word32_reads {field : String} {width : Nat} :
    Reads b (word32 field width).read p width (b.word32At p width) :=
  uint_reads.on.bind fun _ _ => .pure _

theorem coded_reads [Coded α] [DecidableEq α] {field : String} {width : Nat} :
    Reads b (coded field width : Layout α α).read p width (b.codedAt p width) :=
  uint_reads.on.bind fun _ _ => .pure _

theorem coordinate_reads {axis : Quantity.Axis} {field : String} {width : Nat} :
    Reads b (coordinate axis field width).read p width (b.coordinateAt p width) :=
  quantity_reads int_reads

theorem speed_reads : Reads b speed.read p 10 (b.speedAt p) := quantity_reads uint_reads

theorem course_reads : Reads b course.read p 12 (b.courseAt p) := quantity_reads uint_reads

theorem rateOfTurn_reads : Reads b rateOfTurn.read p 8 (b.rateOfTurnAt p) := quantity_reads int_reads

theorem draught_reads : Reads b draught.read p 8 (b.tenthsAt p 8) := quantity_reads uint_reads

theorem header_reads : Reads b header.read 6 32 (Offsets.header b) :=
  word8_reads.on.bind fun _ _ => word32_reads.on.bind fun _ _ => .pure _

theorem dimensions_reads : Reads b dimensions.read p 30 (Offsets.dimensions b p) :=
  word16_reads.on.bind fun _ _ => word16_reads.on.bind fun _ _ =>
  word8_reads.on.bind fun _ _ => word8_reads.on.bind fun _ _ => .pure _

/-! ## Where a station is -/

theorem positionReport_reads :
    Reads b positionReport.read 6 162 (Offsets.positionReport b) :=
  header_reads.on.bind fun _ _ => coded_reads.on.bind fun _ _ => rateOfTurn_reads.on.bind fun _ _ =>
  speed_reads.on.bind fun _ _ => flag_reads.on.bind fun _ _ => coordinate_reads.on.bind fun _ _ =>
  coordinate_reads.on.bind fun _ _ => course_reads.on.bind fun _ _ => word16_reads.on.bind fun _ _ =>
  word8_reads.on.bind fun _ _ => coded_reads.on.bind fun _ _ => spare_reads.bind fun _ _ =>
  flag_reads.on.bind fun _ _ => word32_reads.on.bind fun _ _ => .pure _

theorem baseStationReport_reads :
    Reads b baseStationReport.read 6 162 (Offsets.baseStationReport b) :=
  header_reads.on.bind fun _ _ => word16_reads.on.bind fun _ _ => word8_reads.on.bind fun _ _ =>
  word8_reads.on.bind fun _ _ => word8_reads.on.bind fun _ _ => word8_reads.on.bind fun _ _ =>
  word8_reads.on.bind fun _ _ => flag_reads.on.bind fun _ _ => coordinate_reads.on.bind fun _ _ =>
  coordinate_reads.on.bind fun _ _ => coded_reads.on.bind fun _ _ => spare_reads.bind fun _ _ =>
  flag_reads.on.bind fun _ _ => word32_reads.on.bind fun _ _ => .pure _

theorem sarAircraftReport_reads :
    Reads b sarAircraftReport.read 6 162 (Offsets.sarAircraftReport b) :=
  header_reads.on.bind fun _ _ => word16_reads.on.bind fun _ _ => word16_reads.on.bind fun _ _ =>
  flag_reads.on.bind fun _ _ => coordinate_reads.on.bind fun _ _ =>
  coordinate_reads.on.bind fun _ _ => course_reads.on.bind fun _ _ => word8_reads.on.bind fun _ _ =>
  word8_reads.on.bind fun _ _ => flag_reads.on.bind fun _ _ => spare_reads.bind fun _ _ =>
  flag_reads.on.bind fun _ _ => flag_reads.on.bind fun _ _ => word32_reads.on.bind fun _ _ => .pure _

theorem classBPositionReport_reads :
    Reads b classBPositionReport.read 6 162 (Offsets.classBPositionReport b) :=
  header_reads.on.bind fun _ _ => word8_reads.on.bind fun _ _ => speed_reads.on.bind fun _ _ =>
  flag_reads.on.bind fun _ _ => coordinate_reads.on.bind fun _ _ =>
  coordinate_reads.on.bind fun _ _ => course_reads.on.bind fun _ _ => word16_reads.on.bind fun _ _ =>
  word8_reads.on.bind fun _ _ => word8_reads.on.bind fun _ _ => flag_reads.on.bind fun _ _ =>
  flag_reads.on.bind fun _ _ => flag_reads.on.bind fun _ _ => flag_reads.on.bind fun _ _ =>
  flag_reads.on.bind fun _ _ => flag_reads.on.bind fun _ _ => flag_reads.on.bind fun _ _ =>
  word32_reads.on.bind fun _ _ => .pure _

theorem extendedClassBReport_reads :
    Reads b extendedClassBReport.read 6 306 (Offsets.extendedClassBReport b) :=
  header_reads.on.bind fun _ _ => word8_reads.on.bind fun _ _ => speed_reads.on.bind fun _ _ =>
  flag_reads.on.bind fun _ _ => coordinate_reads.on.bind fun _ _ =>
  coordinate_reads.on.bind fun _ _ => course_reads.on.bind fun _ _ => word16_reads.on.bind fun _ _ =>
  word8_reads.on.bind fun _ _ => word8_reads.on.bind fun _ _ => (text_reads _).on.bind fun _ _ =>
  word8_reads.on.bind fun _ _ => dimensions_reads.on.bind fun _ _ => coded_reads.on.bind fun _ _ =>
  flag_reads.on.bind fun _ _ => flag_reads.on.bind fun _ _ => flag_reads.on.bind fun _ _ =>
  spare_reads.bind fun _ _ => .pure _

theorem longRangeReport_reads :
    Reads b longRangeReport.read 6 90 (Offsets.longRangeReport b) :=
  header_reads.on.bind fun _ _ => flag_reads.on.bind fun _ _ => flag_reads.on.bind fun _ _ =>
  coded_reads.on.bind fun _ _ => coordinate_reads.on.bind fun _ _ =>
  coordinate_reads.on.bind fun _ _ => word8_reads.on.bind fun _ _ => word16_reads.on.bind fun _ _ =>
  flag_reads.on.bind fun _ _ => spare_reads.bind fun _ _ => .pure _

/-! ## Ships and marks -/

theorem arrival_reads : Reads b arrival.read p 20 (Offsets.arrival b p) :=
  word8_reads.on.bind fun _ _ => word8_reads.on.bind fun _ _ =>
  word8_reads.on.bind fun _ _ => word8_reads.on.bind fun _ _ => .pure _

/-- The destination in a message that has room for `count` of its characters. -/
theorem destination_read (count : Nat) (h : 118 ≤ b.length - p)
    (hc : min ((b.length - p) / 6) 20 = count) :
    destination.read ⟨b, p⟩ = ((text count).read ⟨b, p⟩).bind fun (s, r) =>
      if count = 20 ∧ 0 < r.remaining then (flag.read r).bind fun (x, r) => .ok ((s, x), r)
      else .ok ((s, false), r) := by
  subst hc
  exact if_neg (Nat.not_lt.mpr h)

theorem destination_reads_short (h : b.length - p < 118) {x : Except Error (String × Bool)} :
    Reads b destination.read p 118 x where
  ok hle := by omega
  short hp _ := by
    refine ⟨_, if_pos h, _, _, rfl, ?_⟩
    show b.length < p + 120
    omega

theorem destination_reads_cut (h : 118 ≤ b.length - p) (h' : b.length - p < 120) :
    Reads b destination.read p 114 (do return (← b.textAt p 114, false)) := by
  refine ((text_reads 19).map (·, false)).congr ?_
  rw [destination_read 19 h (by omega)]
  rfl

theorem destination_reads_unflagged (h : b.length - p = 120) :
    Reads b destination.read p 120 (do return (← b.textAt p 120, false)) := by
  refine ((text_reads 20).map (·, false)).congr ?_
  obtain ⟨s, hs, -⟩ := (text_reads (b := b) (p := p) 20).ok (by omega)
  have hr : ¬ 0 < Reader.remaining ⟨b, p + 6 * 20⟩ := by
    show ¬ 0 < b.length - (p + 6 * 20)
    omega
  rw [destination_read 20 (by omega) (by omega), hs]
  simp only [Except.bind, hr, and_false, if_false]
  rfl

theorem destination_reads_flagged (h : 121 ≤ b.length - p) :
    Reads b destination.read p 121 (do return (← b.textAt p 120, ← b.flagAt (p + 120))) := by
  have hl : Reads b (text 20 >>= fun s => flag.on (fun _ => false) >>= fun x => pure (s, x) :
      Layout String (String × Bool)).read p (120 + (1 + 0)) _ :=
    (text_reads 20).bind fun s _ => flag_reads.on.bind fun x _ => .pure (s, x)
  refine hl.congr ?_
  obtain ⟨s, hs, -⟩ := (text_reads (b := b) (p := p) 20).ok (by omega)
  have hr : 0 < Reader.remaining ⟨b, p + 6 * 20⟩ := by
    show 0 < b.length - (p + 6 * 20)
    omega
  rw [destination_read 20 (by omega) (by omega), hs]
  simp only [Except.bind, hr, and_self, if_true]
  show _ = ((text 20).read ⟨b, p⟩).bind _
  rw [hs]
  rfl

/-- How far the destination and its flag reach; at least 118 bits must be there. -/
def destinationReach (b : Bits) : Nat :=
  if b.length < 420 then 118 else if b.length < 422 then 114 else if b.length < 423 then 120 else 121

theorem destination_reads :
    Reads b destination.read 302 (destinationReach b) (Offsets.destination b) := by
  unfold destinationReach Offsets.destination Offsets.dte
  rcases Nat.lt_or_ge b.length 420 with h₀ | h₀
  · rw [if_pos h₀]
    exact destination_reads_short (by omega)
  rcases Nat.lt_or_ge b.length 422 with h₁ | h₁
  · rw [if_neg (by omega), if_pos h₁, if_pos h₁, if_pos (by omega)]
    exact destination_reads_cut (by omega) (by omega)
  rcases Nat.lt_or_ge b.length 423 with h₂ | h₂
  · rw [if_neg (by omega), if_neg (by omega), if_pos h₂, if_neg (by omega), if_pos h₂]
    exact destination_reads_unflagged (by omega)
  · rw [if_neg (by omega), if_neg (by omega), if_neg (by omega), if_neg (by omega),
      if_neg (by omega)]
    exact destination_reads_flagged (by omega)

theorem staticVoyageData_needs :
    Needs b staticVoyageData.read 6 420 (Offsets.staticVoyageData b) := by
  have h : Reads b staticVoyageData.read 6 (296 + destinationReach b)
      (Offsets.staticVoyageData b) :=
    .cast (header_reads.on.bind fun _ _ => word8_reads.on.bind fun _ _ =>
      word32_reads.on.bind fun _ _ => (text_reads _).on.bind fun _ _ =>
      (text_reads _).on.bind fun _ _ => word8_reads.on.bind fun _ _ =>
      dimensions_reads.on.bind fun _ _ => coded_reads.on.bind fun _ _ =>
      arrival_reads.on.bind fun _ _ => draught_reads.on.bind fun _ _ =>
      destination_reads.on.bind fun _ _ => filling_reads.bind fun _ _ => .pure _) (by omega)
  refine h.needs ?_ fun _ => rfl
  unfold destinationReach
  repeat' split
  all_goals omega

theorem aidToNavigationReport_needs :
    Needs b aidToNavigationReport.read 6 272 (Offsets.aidToNavigationReport b) := by
  have h : Reads b aidToNavigationReport.read 6 (266 + 6 * min ((b.length - 272) / 6) 14)
      (Offsets.aidToNavigationReport b) :=
    .cast (header_reads.on.bind fun _ _ => word8_reads.on.bind fun _ _ =>
      (text_reads _).on.bind fun _ _ => flag_reads.on.bind fun _ _ =>
      coordinate_reads.on.bind fun _ _ => coordinate_reads.on.bind fun _ _ =>
      dimensions_reads.on.bind fun _ _ => coded_reads.on.bind fun _ _ =>
      word8_reads.on.bind fun _ _ => flag_reads.on.bind fun _ _ => word8_reads.on.bind fun _ _ =>
      flag_reads.on.bind fun _ _ => flag_reads.on.bind fun _ _ => flag_reads.on.bind fun _ _ =>
      spare_reads.bind fun _ _ => textRun_reads.on.bind fun _ _ => .pure _)
      (by simp only [nameExtensionLength]; omega)
  exact h.needs (by omega) fun _ => rfl

theorem reference_reads {sender : Mmsi} :
    Reads b (reference sender).read p 30 (Offsets.reference b sender p) := by
  unfold reference Offsets.reference
  split
  · exact word32_reads.mapped
  · exact dimensions_reads.mapped

theorem equipment_reads {sender : Mmsi} :
    Reads b (equipment sender).read 40 122 (Offsets.equipment b sender) :=
  word8_reads.on.bind fun _ _ => (text_reads _).on.bind fun _ _ => word8_reads.on.bind fun _ _ =>
  word32_reads.on.bind fun _ _ => (text_reads _).on.bind fun _ _ =>
  reference_reads.on.bind fun _ _ => filling_reads.bind fun _ _ => .pure _

/-- A read that comes to what follows a part of `n` bits. -/
theorem Reads.behind {read read' : Reader → Except Error (α × Reader)} {n m : Nat}
    {x : Except Error α} (h : Reads b read (p + n) m x) (hn : p + n ≤ b.length)
    (hr : read' ⟨b, p⟩ = read ⟨b, p + n⟩) : Reads b read' p (n + m) x where
  ok hle := by
    obtain ⟨a, ha, hx⟩ := h.ok (by omega)
    exact ⟨a, by rw [hr, ha, Nat.add_assoc], hx⟩
  short _ hlt := by rw [hr]; exact h.short hn (by omega)

/-- Reads the part of type 24 that has a number. -/
def readPart (sender : Mmsi) : Nat → Reader → Except Error (StaticDataPart × Reader)
  | 0 => ((text 20).mapped StaticDataPart.a).read
  | 1 => ((equipment sender).mapped StaticDataPart.b).read
  | number => fun _ => .error (.unsupportedLayout 24 (.partNumber number))

theorem staticDataPart_read {sender : Mmsi} {number : Nat} (hn : b.uintAt 38 2 = .ok number) :
    (staticDataPart sender).read ⟨b, 38⟩ = readPart sender number ⟨b, 40⟩ := by
  show (answered (Reader.advance ⟨b, 38⟩ 2 (b.uintAt 38 2)) >>= _) = _
  rw [hn]
  rcases number with _ | _ | _ <;> rfl

theorem staticDataPart_reads_a {sender : Mmsi} (hn : b.uintAt 38 2 = .ok 0) (h : 40 ≤ b.length) :
    Reads b (staticDataPart sender).read 38 122 (Offsets.staticDataPart b sender) := by
  rw [Offsets.staticDataPart, hn]
  have ha : Reads b ((text 20).mapped StaticDataPart.a).read (38 + 2) 120 _ := (text_reads 20).mapped
  exact ha.behind h (staticDataPart_read hn)

theorem staticDataPart_reads_b {sender : Mmsi} (hn : b.uintAt 38 2 = .ok 1) (h : 40 ≤ b.length) :
    Reads b (staticDataPart sender).read 38 124 (Offsets.staticDataPart b sender) := by
  rw [Offsets.staticDataPart, hn]
  have hb : Reads b ((equipment sender).mapped StaticDataPart.b).read (38 + 2) 122 _ :=
    equipment_reads.mapped
  exact hb.behind h (staticDataPart_read hn)

/-- A message that ends before the number of its part. -/
theorem staticDataPart_reads_short {sender : Mmsi} (h : b.length < 40)
    {x : Except Error StaticDataPart} : Reads b (staticDataPart sender).read 38 2 x where
  ok hle := by omega
  short _ hlt := by
    refine ⟨.truncated 38 2 b.length, ?_, _, _, rfl, hlt⟩
    show (answered (Reader.advance ⟨b, 38⟩ 2 (b.uintAt 38 2)) >>= _) = _
    rw [Bits.uintAt_spans.short hlt]
    rfl

theorem staticDataReport_reads {n : Nat}
    (hp : ∀ sender, Reads b (staticDataPart sender).read 38 n (Offsets.staticDataPart b sender)) :
    Reads b staticDataReport.read 6 (32 + n) (Offsets.staticDataReport b) :=
  header_reads.on.bind fun _ _ => (hp _).on.bind fun _ _ => .pure _

theorem staticDataReport_needs_a (hn : Bits.value (b.window 38 2) = 0) :
    Needs b staticDataReport.read 6 160 (Offsets.staticDataReport b) := by
  rcases Nat.lt_or_ge b.length 40 with h | h
  · exact (staticDataReport_reads fun _ => staticDataPart_reads_short h).needs (by omega) fun _ => rfl
  · have h₀ : b.uintAt 38 2 = .ok 0 := by rw [Bits.uintAt_eq_ok h, hn]
    exact (staticDataReport_reads fun _ => staticDataPart_reads_a h₀ h).needs Iff.rfl fun _ => rfl

theorem staticDataReport_needs_b (hn : Bits.value (b.window 38 2) = 1) :
    Needs b staticDataReport.read 6 162 (Offsets.staticDataReport b) := by
  rcases Nat.lt_or_ge b.length 40 with h | h
  · exact (staticDataReport_reads fun _ => staticDataPart_reads_short h).needs (by omega) fun _ => rfl
  · have h₁ : b.uintAt 38 2 = .ok 1 := by rw [Bits.uintAt_eq_ok h, hn]
    exact (staticDataReport_reads fun _ => staticDataPart_reads_b h₁ h).needs Iff.rfl fun _ => rfl

/-- A number of 2 or 3 is not that of a part. -/
theorem staticDataReport_unsupported (hn : 2 ≤ Bits.value (b.window 38 2)) (h : 40 ≤ b.length) :
    staticDataReport.read ⟨b, 6⟩ =
      .error (.unsupportedLayout 24 (.partNumber (Bits.value (b.window 38 2)))) := by
  obtain ⟨number, hnum⟩ := Nat.exists_eq_add_of_le' hn
  have h₂ : b.uintAt 38 2 = .ok (number + 2) := by rw [Bits.uintAt_eq_ok h, hnum]
  obtain ⟨sender, hs, -⟩ := (header_reads (b := b)).ok (by omega)
  show (header.read ⟨b, 6⟩).bind _ = _
  rw [hs]
  show ((staticDataPart sender.mmsi).read ⟨b, 38⟩).bind _ = _
  rw [staticDataPart_read h₂, hnum]
  rfl

theorem staticDataReport_short (h₆ : 6 ≤ b.length) (h : b.length < 40) :
    ∃ e, staticDataReport.read ⟨b, 6⟩ = .error e ∧ b.Exceeds e :=
  (staticDataReport_reads fun _ => staticDataPart_reads_short h).short h₆ (by omega)

/-! ## What a station sends to others -/

theorem applicationId_reads : Reads b applicationId.read p 16 (Offsets.applicationId b p) :=
  word16_reads.on.bind fun _ _ => word8_reads.on.bind fun _ _ => .pure _

theorem addressedBinary_needs :
    Needs b addressedBinary.read 6 88 (Offsets.addressedBinary b) := by
  have h : Reads b addressedBinary.read 6 (82 + (b.length - 88)) (Offsets.addressedBinary b) :=
    .cast (header_reads.on.bind fun _ _ => word8_reads.on.bind fun _ _ =>
      word32_reads.on.bind fun _ _ => flag_reads.on.bind fun _ _ => spare_reads.bind fun _ _ =>
      applicationId_reads.on.bind fun _ _ => rest_reads.on.bind fun _ _ => .pure _) (by omega)
  exact h.needs (by omega) fun _ => rfl

theorem acknowledgement_reads :
    Reads b acknowledgement.read p 32 (Offsets.acknowledgement b p) :=
  word32_reads.on.bind fun _ _ => word8_reads.on.bind fun _ _ => .pure _

theorem acknowledge_needs : Needs b acknowledge.read 6 72 (Offsets.acknowledge b) := by
  have h : Reads b acknowledge.read 6 (34 + 32 * min (max ((b.length - 40) / 32) 1) 4) _ :=
    .cast (header_reads.on.bind fun _ _ => spare_reads.bind fun _ _ =>
      (entries_reads fun _ => acknowledgement_reads).on.bind fun _ _ => .pure _) (by omega)
  refine h.needs (by omega) fun hle => ?_
  rw [Offsets.acknowledge,
    show min 4 ((b.length - 40) / 32) = min (max ((b.length - 40) / 32) 1) 4 by omega]
  rfl

theorem binaryBroadcast_needs :
    Needs b binaryBroadcast.read 6 56 (Offsets.binaryBroadcast b) := by
  have h : Reads b binaryBroadcast.read 6 (50 + (b.length - 56)) (Offsets.binaryBroadcast b) :=
    .cast (header_reads.on.bind fun _ _ => spare_reads.bind fun _ _ =>
      applicationId_reads.on.bind fun _ _ => rest_reads.on.bind fun _ _ => .pure _) (by omega)
  exact h.needs (by omega) fun _ => rfl

theorem addressedSafety_needs :
    Needs b addressedSafety.read 6 72 (Offsets.addressedSafety b) := by
  have h : Reads b addressedSafety.read 6 (66 + 6 * min ((b.length - 72) / 6) 156)
      (Offsets.addressedSafety b) :=
    .cast (header_reads.on.bind fun _ _ => word8_reads.on.bind fun _ _ =>
      word32_reads.on.bind fun _ _ => flag_reads.on.bind fun _ _ => spare_reads.bind fun _ _ =>
      textRun_reads.on.bind fun _ _ => .pure _) (by simp only [addressedSafetyLength]; omega)
  exact h.needs (by omega) fun _ => rfl

theorem safetyBroadcast_needs :
    Needs b safetyBroadcast.read 6 40 (Offsets.safetyBroadcast b) := by
  have h : Reads b safetyBroadcast.read 6 (34 + 6 * min ((b.length - 40) / 6) 161)
      (Offsets.safetyBroadcast b) :=
    .cast (header_reads.on.bind fun _ _ => spare_reads.bind fun _ _ =>
      textRun_reads.on.bind fun _ _ => .pure _) (by simp only [safetyBroadcastLength]; omega)
  exact h.needs (by omega) fun _ => rfl

theorem dgnssBroadcast_needs :
    Needs b dgnssBroadcast.read 6 80 (Offsets.dgnssBroadcast b) := by
  have h : Reads b dgnssBroadcast.read 6 (74 + (b.length - 80)) (Offsets.dgnssBroadcast b) :=
    .cast (header_reads.on.bind fun _ _ => spare_reads.bind fun _ _ =>
      coordinate_reads.on.bind fun _ _ => coordinate_reads.on.bind fun _ _ =>
      spare_reads.bind fun _ _ => rest_reads.on.bind fun _ _ => .pure _) (by omega)
  exact h.needs (by omega) fun _ => rfl

theorem recipient_reads :
    Reads b recipient.read 38 (2 + 30 * (b.bit 38).toNat + 16 * (b.bit 39).toNat)
      (Offsets.recipient b) := by
  refine .cast (n := 1 + (1 + (30 * (b.bit 38).toNat + (16 * (b.bit 39).toNat + 0))))
    (flag_reads.on.bind fun addressed ha => flag_reads.on.bind fun structured hs => ?_) (by omega)
  obtain rfl := Bits.eq_bit_of_flagAt ha
  obtain rfl := Bits.eq_bit_of_flagAt hs
  exact (whenPresent_reads word32_reads).on.bind fun _ _ =>
    (whenPresent_reads applicationId_reads).on.bind fun _ _ => .pure _

theorem dataOffset_eq : Offsets.dataOffset b =
    6 + 32 + (2 + 30 * (b.bit 38).toNat + 16 * (b.bit 39).toNat) := by
  simp only [Offsets.dataOffset, Offsets.applicationOffset]
  omega

theorem singleSlotBinary_needs :
    Needs b singleSlotBinary.read 6 (40 + 30 * (b.bit 38).toNat + 16 * (b.bit 39).toNat)
      (Offsets.singleSlotBinary b) := by
  have h : Reads b singleSlotBinary.read 6 _ _ :=
    header_reads.on.bind fun _ _ => recipient_reads.on.bind fun _ _ =>
    rest_reads.on.bind fun _ _ => checked_reads.bind fun _ _ => .pure _
  refine h.needs (by omega) fun _ => ?_
  rw [Offsets.singleSlotBinary, dataOffset_eq]
  rfl

theorem multipleSlotBinary_needs :
    Needs b multipleSlotBinary.read 6 (60 + 30 * (b.bit 38).toNat + 16 * (b.bit 39).toNat)
      (Offsets.multipleSlotBinary b) := by
  have h : Reads b multipleSlotBinary.read 6 _ _ :=
    header_reads.on.bind fun _ _ => recipient_reads.on.bind fun _ _ =>
    restBefore_reads.on.bind fun _ _ => word32_reads.on.bind fun _ _ => .pure _
  refine h.needs ?_ fun hle => ?_
  · split <;> omega
  · have hd : b.length - (6 + 32 + (2 + 30 * (b.bit 38).toNat + 16 * (b.bit 39).toNat)) - 20 =
        b.length - 20 - Offsets.dataOffset b := by
      rw [dataOffset_eq]
      omega
    have hr : 6 + 32 + (2 + 30 * (b.bit 38).toNat + 16 * (b.bit 39).toNat) +
        (if b.length - (6 + 32 + (2 + 30 * (b.bit 38).toNat + 16 * (b.bit 39).toNat)) < 20 then 20
          else b.length - 20 - Offsets.dataOffset b) = b.length - 20 := by
      rw [dataOffset_eq, if_neg (by omega)]
      omega
    rw [hd, hr, ← dataOffset_eq]
    rfl

/-! ## How the radio link is run -/

theorem utcInquiry_needs : Needs b utcInquiry.read 6 70 (Offsets.utcInquiry b) := by
  have h : Reads b utcInquiry.read 6 64 (Offsets.utcInquiry b) :=
    header_reads.on.bind fun _ _ => spare_reads.bind fun _ _ => word32_reads.on.bind fun _ _ =>
    filling_reads.bind fun _ _ => .pure _
  exact h.needs Iff.rfl fun _ => rfl

theorem slotRequest_reads : Reads b slotRequest.read p 18 (Offsets.slotRequest b p) :=
  word8_reads.on.bind fun _ _ => word16_reads.on.bind fun _ _ => .pure _

/-- A request between two pairs of spare bits. -/
theorem secondRequest_reads :
    Reads b secondRequest.read p 22 (Offsets.slotRequest b (p + 2)) := by
  have h : Reads b secondRequest.read p 22 (Offsets.slotRequest b (p + 2) >>= pure) :=
    spare_reads.bind fun _ _ => slotRequest_reads.bind fun _ _ => spare_reads.bind fun _ _ => .pure _
  rwa [bind_pure] at h

theorem secondInterrogation_reads :
    Reads b secondInterrogation.read p 50 (Offsets.secondInterrogation b p) :=
  word32_reads.on.bind fun _ _ => slotRequest_reads.on.bind fun _ _ =>
  spare_reads.bind fun _ _ => .pure _

/-- What type 15 has in a message that ends behind the first request. -/
theorem interrogation_reads_one (h : b.length < 110) :
    Reads b interrogation.read 6 82 (Offsets.interrogation b) := by
  have hr : Reads b interrogation.read 6 82 _ :=
    header_reads.on.bind fun _ _ => spare_reads.bind fun _ _ => word32_reads.on.bind fun _ _ =>
    slotRequest_reads.on.bind fun _ _ => (whenLength_reads_none h).on.bind fun _ _ =>
    (whenLength_reads_none (by omega)).on.bind fun _ _ => .pure _
  rw [Offsets.interrogation, Bits.whenLength, if_neg (by omega), Bits.whenLength,
    if_neg (by omega)]
  exact hr

/-- What type 15 has in a message that ends behind the second request. -/
theorem interrogation_reads_two (h : 110 ≤ b.length) (h' : b.length < 160) :
    Reads b interrogation.read 6 104 (Offsets.interrogation b) := by
  have hr : Reads b interrogation.read 6 104 _ :=
    header_reads.on.bind fun _ _ => spare_reads.bind fun _ _ => word32_reads.on.bind fun _ _ =>
    slotRequest_reads.on.bind fun _ _ =>
    (whenLength_reads_some h secondRequest_reads).on.bind fun _ _ =>
    (whenLength_reads_none h').on.bind fun _ _ => .pure _
  rw [Offsets.interrogation, Bits.whenLength, if_pos h, Bits.whenLength, if_neg (by omega)]
  exact hr

theorem interrogation_reads_three (h : 160 ≤ b.length) :
    Reads b interrogation.read 6 154 (Offsets.interrogation b) := by
  have hr : Reads b interrogation.read 6 154 _ :=
    header_reads.on.bind fun _ _ => spare_reads.bind fun _ _ => word32_reads.on.bind fun _ _ =>
    slotRequest_reads.on.bind fun _ _ =>
    (whenLength_reads_some (by omega) secondRequest_reads).on.bind fun _ _ =>
    (whenLength_reads_some h secondInterrogation_reads).on.bind fun _ _ => .pure _
  rw [Offsets.interrogation, Bits.whenLength, if_pos (by omega), Bits.whenLength, if_pos h]
  exact hr

theorem interrogation_needs : Needs b interrogation.read 6 88 (Offsets.interrogation b) := by
  rcases Nat.lt_or_ge b.length 110 with h₁ | h₁
  · exact (interrogation_reads_one h₁).needs Iff.rfl fun _ => rfl
  rcases Nat.lt_or_ge b.length 160 with h₂ | h₂
  · exact (interrogation_reads_two h₁ h₂).needs (by omega) fun _ => rfl
  · exact (interrogation_reads_three h₂).needs (by omega) fun _ => rfl

theorem slotAssignment_reads :
    Reads b slotAssignment.read p 52 (Offsets.slotAssignment b p) :=
  word32_reads.on.bind fun _ _ => word16_reads.on.bind fun _ _ =>
  word16_reads.on.bind fun _ _ => .pure _

theorem assignmentModeCommand_needs :
    Needs b assignmentModeCommand.read 6 92 (Offsets.assignmentModeCommand b) := by
  have h : Reads b assignmentModeCommand.read 6
      (34 + 52 * min (max ((b.length - 40) / 52) 1) 2) _ :=
    .cast (header_reads.on.bind fun _ _ => spare_reads.bind fun _ _ =>
      (entries_reads fun _ => slotAssignment_reads).on.bind fun _ _ =>
      filling_reads.bind fun _ _ => .pure _) (by omega)
  refine h.needs (by omega) fun hle => ?_
  unfold Offsets.assignmentModeCommand Bits.whenLength
  rcases Nat.lt_or_ge b.length 144 with h' | h'
  · rw [if_neg (by omega), show min (max ((b.length - (6 + 32 + 2)) / 52) 1) 2 = 1 by omega]
    simp [List.range']
  · rw [if_pos h', show min (max ((b.length - (6 + 32 + 2)) / 52) 1) 2 = 2 by omega]
    simp [List.range']

theorem slotReservation_reads :
    Reads b slotReservation.read p 30 (Offsets.slotReservation b p) :=
  word16_reads.on.bind fun _ _ => word8_reads.on.bind fun _ _ => word8_reads.on.bind fun _ _ =>
  word16_reads.on.bind fun _ _ => .pure _

theorem dataLinkManagement_needs :
    Needs b dataLinkManagement.read 6 70 (Offsets.dataLinkManagement b) := by
  have h : Reads b dataLinkManagement.read 6
      (34 + 30 * min (max ((b.length - 40) / 30) 1) 4) _ :=
    .cast (header_reads.on.bind fun _ _ => spare_reads.bind fun _ _ =>
      (entries_reads fun _ => slotReservation_reads).on.bind fun _ _ =>
      filling_reads.bind fun _ _ => .pure _) (by omega)
  refine h.needs (by omega) fun hle => ?_
  rw [Offsets.dataLinkManagement,
    show min 4 ((b.length - 40) / 30) = min (max ((b.length - 40) / 30) 1) 4 by omega]
  rfl

theorem region_reads : Reads b region.read p 70 (Offsets.region b p) :=
  coordinate_reads.on.bind fun _ _ => coordinate_reads.on.bind fun _ _ =>
  coordinate_reads.on.bind fun _ _ => coordinate_reads.on.bind fun _ _ => .pure _

theorem addressedArea_reads : Reads b addressedArea.read 69 71
    (do return .addressed (← b.word32At 69 30) (← b.word32At 104 30)) :=
  word32_reads.on.bind fun _ _ => spare_reads.bind fun _ _ => word32_reads.on.bind fun _ _ =>
  spare_reads.bind fun _ _ => fixedFlag_reads.bind fun _ _ => .pure _

theorem regionArea_reads : Reads b regionArea.read 69 71
    (do return .region (← Offsets.region b 69)) :=
  region_reads.bind fun _ _ => fixedFlag_reads.bind fun _ _ => .pure _

/-- Which kind of area it is, the flag behind it says. -/
theorem channelArea_reads (hp : p = 69) :
    Reads b channelArea.read p 71 (Offsets.channelArea b) := by
  subst hp
  rcases Nat.lt_or_ge b.length 140 with h | h
  · refine ⟨fun hle => by omega, fun _ _ => ⟨.truncated 139 1 b.length, ?_, _, _, rfl, h⟩⟩
    show (b.flagAt 139 >>= _) = _
    rw [Bits.flagAt_spans.short h]
    rfl
  · have hf : b.flagAt 139 = .ok (b.bit 139) := Bits.flagAt_eq_ok h
    have hread : channelArea.read ⟨b, 69⟩ =
        (if b.bit 139 then addressedArea.read ⟨b, 69⟩ else regionArea.read ⟨b, 69⟩) := by
      show (b.flagAt 139 >>= _) = _
      rw [hf]
      rfl
    have hx : Offsets.channelArea b =
        if b.bit 139 then (do return .addressed (← b.word32At 69 30) (← b.word32At 104 30))
        else do return .region (← Offsets.region b 69) := by
      rw [Offsets.channelArea, hf]
      rfl
    rw [hx]
    cases hb : b.bit 139 with
    | true => exact addressedArea_reads.congr (by rw [hread, hb]; rfl)
    | false => exact regionArea_reads.congr (by rw [hread, hb]; rfl)

theorem channelManagement_reads :
    Reads b channelManagement.read 6 162 (Offsets.channelManagement b) :=
  header_reads.on.bind fun _ _ => spare_reads.bind fun _ _ => word16_reads.on.bind fun _ _ =>
  word16_reads.on.bind fun _ _ => word8_reads.on.bind fun _ _ => flag_reads.on.bind fun _ _ =>
  (channelArea_reads (by rfl)).on.bind fun _ _ => flag_reads.on.bind fun _ _ =>
  flag_reads.on.bind fun _ _ => word8_reads.on.bind fun _ _ => spare_reads.bind fun _ _ => .pure _

theorem groupAssignmentCommand_reads :
    Reads b groupAssignmentCommand.read 6 154 (Offsets.groupAssignmentCommand b) :=
  header_reads.on.bind fun _ _ => spare_reads.bind fun _ _ => region_reads.on.bind fun _ _ =>
  word8_reads.on.bind fun _ _ => word8_reads.on.bind fun _ _ => spare_reads.bind fun _ _ =>
  word8_reads.on.bind fun _ _ => word8_reads.on.bind fun _ _ => word8_reads.on.bind fun _ _ =>
  spare_reads.bind fun _ _ => .pure _

end Transponder.Layout

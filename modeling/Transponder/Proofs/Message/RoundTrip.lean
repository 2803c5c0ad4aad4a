import Transponder.Proofs.Layout.Carried
import Transponder.Proofs.Message.Decoding

/-!
# What is encoded is decoded again

Encoding a message and decoding the bits gives the normalised message (`decode_encode`). The layouts
say so of what follows the number of the type (`keepsBody`), and the number itself is found again
at the start of the bits. A few bits may even follow those that were written, as the filling of the
last six-bit character does, unless the message ends with data that takes all that is left
(`decode_of_isPrefix`).
-/

namespace Transponder.Message

open Layout

/-- The numbers of bits that may follow a message without a change of what is read. -/
def slack : Message → Nat → Prop
  | addressedBinary _ | binaryBroadcast _ | dgnssBroadcast _ | singleSlotBinary _
  | multipleSlotBinary _ => (· = 0)
  | _ => (· < 6)

theorem slack_zero (m : Message) : m.slack 0 := by
  cases m
  all_goals first | exact rfl | exact Nat.zero_lt_succ 5

theorem slack_sub_self (m : Message) (n : Nat) : m.slack (n - n) := by
  rw [Nat.sub_self]
  exact slack_zero m

/-- What was written behind the number of the type is read back normalised. -/
def KeepsBody (m : Message) : Prop :=
  ∀ w m' w', w.bits.length = 6 → m.writeBody w = .ok (m', w') →
    m' = m.normalised ∧ w.bits.toList <+: w'.bits.toList ∧
      ∀ b : Bits, w'.bits.toList <+: b.toList → m.slack (b.length - w'.bits.length) →
        ∃ r, readBody m.messageType.toNat ⟨b, 6⟩ = .ok (m.normalised, r)

theorem keepsBody_of_closes {σ α : Type} {m : Message} {l : Layout σ α} {make : α → Message} {s : σ}
    {n f : Nat} {slack : Nat → Prop} {a : α} (hl : Closes l 6 s n f slack a)
    (hw : m.writeBody = (l.mapped make).write s)
    (hr : readBody m.messageType.toNat = (l.mapped make).read) (hn : m.normalised = make a)
    (hs : ∀ t, m.slack t → slack t) : KeepsBody m := by
  intro w m' w' hp h
  rw [hw] at h
  obtain ⟨rfl, hk⟩ := hl.mapped w m' w' hp h
  refine ⟨hn.symm, hk.grows, fun b hb ht => ?_⟩
  rw [hr, hn, ← hp]
  exact ⟨_, hk.reads b hb (hs _ ht)⟩

theorem readBody_of_not_isKnownType {n : Nat} (h : isKnownType n = false) :
    readBody n = (Layout.header.mapped (unknown (UInt8.ofNat n))).read := by
  rcases Nat.eq_zero_or_pos n with rfl | hpos
  · rfl
  · obtain ⟨k, rfl⟩ : ∃ k, n = k + 28 := ⟨n - 28, by
      rw [isKnownType, maxKnownType, Bool.and_eq_false_iff] at h
      simp only [decide_eq_false_iff_not] at h
      omega⟩
    rfl

theorem keepsBody_unknown {messageType : UInt8} {header : Header} :
    KeepsBody (unknown messageType header) := by
  intro w m' w' hp h
  change (Layout.header.write header w >>= _) = _ at h
  cases hw : Layout.header.write header w with
  | error e => rw [hw] at h; cases h
  | ok x =>
    rw [hw] at h
    obtain ⟨header', v⟩ := x
    change (if isKnownType messageType.toNat then _ else _) = _ at h
    split at h
    case isTrue => cases h
    case isFalse hk =>
      cases h
      obtain ⟨rfl, hkept⟩ := header_carries w header' w' hp hw
      refine ⟨rfl, hkept.grows, fun b hb ht => ?_⟩
      have hr := hkept.reads b hb trivial
      rw [hp] at hr
      refine ⟨⟨b, 38⟩, ?_⟩
      show readBody messageType.toNat ⟨b, 6⟩ = _
      rw [readBody_of_not_isKnownType (by simpa using hk)]
      show (Layout.header.read ⟨b, 6⟩).map _ = _
      rw [hr, UInt8.ofNat_toNat]
      rfl

theorem keepsBody : ∀ m : Message, KeepsBody m
  | positionReportScheduled _ =>
    keepsBody_of_closes positionReport_carries rfl rfl rfl fun _ _ => trivial
  | positionReportAssigned _ =>
    keepsBody_of_closes positionReport_carries rfl rfl rfl fun _ _ => trivial
  | positionReportInterrogated _ =>
    keepsBody_of_closes positionReport_carries rfl rfl rfl fun _ _ => trivial
  | baseStationReport _ =>
    keepsBody_of_closes baseStationReport_carries rfl rfl rfl fun _ _ => trivial
  | staticVoyageData _ =>
    keepsBody_of_closes staticVoyageData_carries rfl rfl rfl fun _ _ => trivial
  | addressedBinary _ => keepsBody_of_closes addressedBinary_closes rfl rfl rfl fun _ h => h
  | binaryAcknowledge _ =>
    keepsBody_of_closes acknowledge_closes rfl rfl rfl fun _ h => Nat.lt_trans h (by decide)
  | binaryBroadcast _ => keepsBody_of_closes binaryBroadcast_closes rfl rfl rfl fun _ h => h
  | sarAircraftReport _ =>
    keepsBody_of_closes sarAircraftReport_carries rfl rfl rfl fun _ _ => trivial
  | utcInquiry _ => keepsBody_of_closes utcInquiry_carries rfl rfl rfl fun _ _ => trivial
  | utcDateResponse _ =>
    keepsBody_of_closes baseStationReport_carries rfl rfl rfl fun _ _ => trivial
  | addressedSafety _ => keepsBody_of_closes addressedSafety_closes rfl rfl rfl fun _ h => h
  | safetyAcknowledge _ =>
    keepsBody_of_closes acknowledge_closes rfl rfl rfl fun _ h => Nat.lt_trans h (by decide)
  | safetyBroadcast _ => keepsBody_of_closes safetyBroadcast_closes rfl rfl rfl fun _ h => h
  | interrogation _ => keepsBody_of_closes interrogation_closes rfl rfl rfl fun _ h => h
  | assignmentModeCommand _ =>
    keepsBody_of_closes assignmentModeCommand_closes rfl rfl rfl fun _ h => h
  | dgnssBroadcast _ => keepsBody_of_closes dgnssBroadcast_closes rfl rfl rfl fun _ h => h
  | classBPositionReport _ =>
    keepsBody_of_closes classBPositionReport_carries rfl rfl rfl fun _ _ => trivial
  | extendedClassBReport _ =>
    keepsBody_of_closes extendedClassBReport_carries rfl rfl rfl fun _ _ => trivial
  | dataLinkManagement _ => keepsBody_of_closes dataLinkManagement_closes rfl rfl rfl fun _ h => h
  | aidToNavigationReport _ =>
    keepsBody_of_closes aidToNavigationReport_closes rfl rfl rfl fun _ h => h
  | channelManagement _ =>
    keepsBody_of_closes channelManagement_carries rfl rfl rfl fun _ _ => trivial
  | groupAssignmentCommand _ =>
    keepsBody_of_closes groupAssignmentCommand_carries rfl rfl rfl fun _ _ => trivial
  | staticDataReport _ =>
    keepsBody_of_closes staticDataReport_carries rfl rfl rfl fun _ _ => trivial
  | singleSlotBinary _ => keepsBody_of_closes singleSlotBinary_closes rfl rfl rfl fun _ h => h
  | multipleSlotBinary _ => keepsBody_of_closes multipleSlotBinary_closes rfl rfl rfl fun _ h => h
  | longRangeReport _ => keepsBody_of_closes longRangeReport_carries rfl rfl rfl fun _ _ => trivial
  | unknown _ _ => keepsBody_unknown

/-- The two steps of encoding. -/
theorem encode_eq_ok {m : Message} {bits : Bits} (h : m.encode = .ok bits) :
    ∃ w m' w', (uint "message_type" typeWidth).write m.messageType.toNat .empty =
        .ok (m.messageType.toNat, w) ∧ m.writeBody w = .ok (m', w') ∧ bits = w'.bits := by
  change (answered (Writer.empty.uint "message_type" m.messageType.toNat typeWidth) >>= _) = _ at h
  cases hw : answered (Writer.empty.uint "message_type" m.messageType.toNat typeWidth) with
  | error e => rw [hw] at h; cases h
  | ok y =>
    rw [hw] at h
    change (m.writeBody y.2 >>= _) = _ at h
    cases hb : m.writeBody y.2 with
    | error e => rw [hb] at h; cases h
    | ok x =>
      rw [hb] at h
      cases h
      exact ⟨y.2, x.1, x.2, congrArg (Except.map _) hw, hb, rfl⟩

/-- A sequence that starts with the bits of a message, and goes on for as long as the type of the
message puts up with. -/
theorem decode_of_isPrefix {m : Message} {bits b : Bits} (h : m.encode = .ok bits)
    (hb : bits.toList <+: b.toList) (ht : m.slack (b.length - bits.length)) :
    decode b = .ok m.normalised := by
  obtain ⟨w, m', w', hw, hbody, rfl⟩ := encode_eq_ok h
  obtain ⟨-, hk⟩ := (uint_carries (p := 0)) .empty _ w rfl hw
  obtain ⟨-, hgrows, hread⟩ := keepsBody m w m' w' hk.length hbody
  obtain ⟨r, hr⟩ := hread b hb ht
  have hu : answered ((Reader.start b).uint typeWidth) = .ok (m.messageType.toNat, ⟨b, 6⟩) :=
    hk.reads b (hgrows.trans hb) trivial
  rw [decode, hu]
  show (readBody m.messageType.toNat ⟨b, 6⟩ >>= _) = _
  rw [hr]
  rfl

/-- A message that is encoded and decoded again is normalised, and otherwise kept. -/
theorem decode_encode {m : Message} {bits : Bits} (h : m.encode = .ok bits) :
    decode bits = .ok m.normalised :=
  decode_of_isPrefix h (List.prefix_refl _) (by
    rw [Nat.sub_self]
    exact slack_zero m)

/-- A message of which it was computed that it can be encoded. -/
theorem exists_encode_of_isOk {m : Message} (h : m.encode.isOk = true) :
    ∃ bits, m.encode = .ok bits := by
  cases hm : m.encode with
  | error e =>
    rw [hm] at h
    cases h
  | ok bits => exact ⟨bits, rfl⟩

/-- A buoy with a name in lower case, and with characters that the wire does not have. -/
def buoy : AidToNavigationReport where
  header := { repeatIndicator := 1, mmsi := 992351000 }
  aidType := 14
  name := "north \x7breef\x7d @ 1"
  positionAccuracy := true
  longitude := .ofRatio 1234567 100000
  latitude := .ofRatio 547 10
  dimensions := { toBow := 2, toStern := 2, toPort := 1, toStarboard := 1 }
  device := .surveyed
  second := 61
  offPosition := false
  regional := 0
  raim := false
  virtualAid := false
  assigned := true
  nameExtension := " light "

theorem decode_encode_buoy :
    (∃ bits, (aidToNavigationReport buoy).encode = .ok bits ∧
      decode bits = .ok (aidToNavigationReport buoy).normalised) ∧
    buoy.normalised.name = "NORTH ?REEF?" ∧ buoy.normalised.nameExtension = " LIGHT" := by
  refine ⟨?_, by decide +kernel, by decide +kernel⟩
  have hok : (aidToNavigationReport buoy).encode.isOk = true := by decide +kernel
  cases h : (aidToNavigationReport buoy).encode with
  | error e =>
    rw [h] at hok
    cases hok
  | ok bits => exact ⟨bits, rfl, decode_encode h⟩

end Transponder.Message

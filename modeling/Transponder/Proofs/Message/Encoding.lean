import Mathlib.Algebra.Group.Nat.Defs
import Transponder.Proofs.Layout.Taken
import Transponder.Proofs.Message.RoundTrip

/-!
# Which messages can be encoded

A message can be encoded if and only if it meets all its demands and is not the header alone of a
type that has a layout, and then its bits are as many as `Message.encodedLength` says. A message that
is refused is refused with the error of the first demand that it does not meet, in the name of a
field; a header alone is refused as such only if its own fields fit.
-/

namespace Transponder

-- Powers are those of `Nat` and `Int` themselves.
attribute [local instance (high)] instPowNat

open Demand

namespace Message

open Layout

variable {σ α : Type} {n : Nat}

/-- The header alone is left of a message of a type that has a layout. -/
def HeaderOnly : Message → Prop
  | unknown messageType _ => isKnownType messageType.toNat = true
  | _ => False

/-- The number of a type and what follows it. -/
def headed (l : Layout σ α) : Layout (Nat × σ) α := do
  let _ ← (uint "message_type" typeWidth).on (·.1)
  l.on (·.2)

theorem headed_takes {l : Layout σ α} {messageType : Nat} {s : σ} {ds : List Demand}
    (hl : Takes l 6 s ds n) :
    Takes (headed l) 0 (messageType, s) (.number "message_type" messageType 6 :: ds) (6 + n) :=
  Takes.bind (n := 6) uint_takes.on fun _ => hl.on

/-- What becomes of a message that is encoded. -/
structure Encodes (m : Message) : Prop where
  refused : ∀ e, firstRefusal? m.demands = some e → m.encode = .error e
  headerOnly : firstRefusal? m.demands = none → m.HeaderOnly →
    m.encode = .error (.unsupportedLayout m.messageType.toNat .headerOnly)
  encoded : firstRefusal? m.demands = none → ¬ m.HeaderOnly →
    ∃ bits, m.encode = .ok bits ∧ bits.length = m.encodedLength

/-- Encoding is what a layout writes behind the number of the type, and what is made of it. -/
theorem encode_eq_bind {m : Message} {l : Layout σ α} {s : σ}
    {finish : α × Writer → Except Error (Message × Writer)}
    (hw : ∀ w, m.writeBody w = (l.write s w).bind finish) :
    m.encode = ((headed l).write (m.messageType.toNat, s) .empty).bind fun x =>
      (finish x).map fun y => y.2.bits := by
  show (answered (Writer.empty.uint "message_type" m.messageType.toNat typeWidth) >>= _) =
    (((answered (Writer.empty.uint "message_type" m.messageType.toNat typeWidth)).map _).bind _).bind _
  cases answered (Writer.empty.uint "message_type" m.messageType.toNat typeWidth) with
  | error e => rfl
  | ok y =>
    show (m.writeBody y.2 >>= _) = (l.write s y.2).bind _
    rw [hw]
    cases l.write s y.2 with
    | error e => rfl
    | ok x =>
      show (finish x >>= _) = (finish x).map _
      cases finish x <;> rfl

/-- A message of a type with a layout, encoded by the layout. -/
theorem encodes_of_takes {m : Message} {l : Layout σ α} {make : α → Message} {s : σ}
    (hl : Takes l 6 s m.bodyDemands n) (hw : m.writeBody = (l.mapped make).write s)
    (hm : ¬ m.HeaderOnly) (hn : (∀ d ∈ m.bodyDemands, d.Met) → 6 + n = m.encodedLength) :
    Encodes m := by
  have hall : Takes (headed l) 0 (m.messageType.toNat, s) m.demands (6 + n) := headed_takes hl
  have hbody : ∀ w, m.writeBody w = (l.write s w).bind fun x => .ok (make x.1, x.2) := by
    intro w
    rw [hw]
    show (l.write s w).map _ = _
    cases l.write s w <;> rfl
  refine ⟨fun e he => ?_, fun _ h => (hm h).elim, fun hnone _ => ?_⟩
  · rw [encode_eq_bind hbody, hall.refuses .empty e rfl he]
    rfl
  · obtain ⟨a, w', hwrite, hlen⟩ := hall.accepts .empty rfl hnone
    have hmet := firstRefusal?_eq_none_iff.mp hnone
    refine ⟨w'.bits, ?_, ?_⟩
    · rw [encode_eq_bind hbody, hwrite]
      rfl
    · rw [hlen, Nat.zero_add]
      exact hn fun d hd => hmet d (List.mem_cons_of_mem _ hd)

theorem encodes_unknown {messageType : UInt8} {header : Header} :
    Encodes (unknown messageType header) := by
  have hall : Takes (headed Layout.header) 0 (messageType.toNat, header)
      (unknown messageType header).demands (6 + 32) := headed_takes header_takes
  have hencode : (unknown messageType header).encode =
      ((headed Layout.header).write (messageType.toNat, header) .empty).bind fun x =>
        (if isKnownType messageType.toNat then
          Except.error (.unsupportedLayout messageType.toNat .headerOnly)
        else Except.ok (unknown messageType x.1, x.2)).map fun y => y.2.bits :=
    encode_eq_bind fun _ => rfl
  refine ⟨fun e he => ?_, fun hnone h => ?_, fun hnone h => ?_⟩
  · rw [hencode, hall.refuses .empty e rfl he]
    rfl
  · obtain ⟨a, w', hwrite, -⟩ := hall.accepts .empty rfl hnone
    rw [hencode, hwrite]
    exact congrArg (Except.map _) (if_pos h)
  · obtain ⟨a, w', hwrite, hlen⟩ := hall.accepts .empty rfl hnone
    rw [hencode, hwrite]
    exact ⟨w'.bits, congrArg (Except.map _) (if_neg h), hlen⟩

theorem encodes : ∀ m : Message, Encodes m
  | positionReportScheduled _ => encodes_of_takes positionReport_takes rfl id fun _ => rfl
  | positionReportAssigned _ => encodes_of_takes positionReport_takes rfl id fun _ => rfl
  | positionReportInterrogated _ => encodes_of_takes positionReport_takes rfl id fun _ => rfl
  | baseStationReport _ => encodes_of_takes baseStationReport_takes rfl id fun _ => rfl
  | staticVoyageData _ => encodes_of_takes staticVoyageData_takes rfl id fun _ => rfl
  | addressedBinary m => encodes_of_takes addressedBinary_takes rfl id fun _ => by
    simp only [encodedLength]; omega
  | binaryAcknowledge m => encodes_of_takes acknowledge_takes rfl id fun _ => by
    simp only [encodedLength]; omega
  | binaryBroadcast m => encodes_of_takes binaryBroadcast_takes rfl id fun _ => by
    simp only [encodedLength]; omega
  | sarAircraftReport _ => encodes_of_takes sarAircraftReport_takes rfl id fun _ => rfl
  | utcInquiry _ => encodes_of_takes utcInquiry_takes rfl id fun _ => rfl
  | utcDateResponse _ => encodes_of_takes baseStationReport_takes rfl id fun _ => rfl
  | addressedSafety m => encodes_of_takes addressedSafety_takes rfl id fun _ => by
    simp only [encodedLength]; omega
  | safetyAcknowledge m => encodes_of_takes acknowledge_takes rfl id fun _ => by
    simp only [encodedLength]; omega
  | safetyBroadcast m => encodes_of_takes safetyBroadcast_takes rfl id fun _ => by
    simp only [encodedLength]; omega
  | interrogation m => encodes_of_takes interrogation_takes rfl id fun _ => by
    obtain ⟨_, _, _, secondRequest, second⟩ := m
    cases secondRequest <;> cases second <;> rfl
  | assignmentModeCommand m => encodes_of_takes assignmentModeCommand_takes rfl id fun h => by
    have hcount : 1 ≤ m.assignments.length ∧ m.assignments.length ≤ 2 :=
      h (.count "assignments" m.assignments.length 2 "1 or 2")
        (by simp [bodyDemands, AssignmentModeCommand.demands])
    simp only [encodedLength]
    split <;> omega
  | dgnssBroadcast m => encodes_of_takes dgnssBroadcast_takes rfl id fun _ => by
    simp only [encodedLength]; omega
  | classBPositionReport _ => encodes_of_takes classBPositionReport_takes rfl id fun _ => rfl
  | extendedClassBReport _ => encodes_of_takes extendedClassBReport_takes rfl id fun _ => rfl
  | dataLinkManagement m => encodes_of_takes dataLinkManagement_takes rfl id fun h => by
    have hcount : 1 ≤ m.reservations.length ∧ m.reservations.length ≤ 4 :=
      h (.count "reservations" m.reservations.length 4 "1 to 4")
        (by simp [bodyDemands, DataLinkManagement.demands])
    have hlen : m.reservations.length = 1 ∨ m.reservations.length = 2 ∨
        m.reservations.length = 3 ∨ m.reservations.length = 4 := by omega
    rcases hlen with h | h | h | h <;> simp only [encodedLength, reservationFilling, h]
  | aidToNavigationReport m => encodes_of_takes aidToNavigationReport_takes rfl id fun _ => by
    simp only [encodedLength]; omega
  | channelManagement _ => encodes_of_takes channelManagement_takes rfl id fun _ => rfl
  | groupAssignmentCommand _ => encodes_of_takes groupAssignmentCommand_takes rfl id fun _ => rfl
  | staticDataReport m => encodes_of_takes staticDataReport_takes rfl id fun _ => by
    obtain ⟨_, part⟩ := m
    cases part <;> rfl
  | singleSlotBinary m => encodes_of_takes singleSlotBinary_takes rfl id fun _ => by
    simp only [encodedLength]; omega
  | multipleSlotBinary m => encodes_of_takes multipleSlotBinary_takes rfl id fun _ => by
    simp only [encodedLength]; omega
  | longRangeReport _ => encodes_of_takes longRangeReport_takes rfl id fun _ => rfl
  | unknown _ _ => encodes_unknown

/-- A header alone, of a type that has a layout, fits if its two fields fit. -/
theorem met_of_headerOnly {t : UInt8} {header : Header} (h : isKnownType t.toNat = true) :
    (∀ d ∈ (unknown t header).demands, d.Met) ↔
      header.repeatIndicator.toNat < 4 ∧ header.mmsi.toNat < 2 ^ 30 := by
  have ht : t.toNat ≤ maxKnownType := by
    simp only [isKnownType, Bool.and_eq_true, decide_eq_true_eq] at h
    exact h.2
  have htype : t.toNat < 2 ^ 6 := Nat.lt_of_le_of_lt ht (by decide)
  simp only [demands, bodyDemands, Header.demands, List.forall_mem_cons, Met]
  exact ⟨fun hall => ⟨hall.2.1, hall.2.2.1⟩, fun hfits =>
    ⟨htype, hfits.1, hfits.2, fun d hd => absurd hd List.not_mem_nil⟩⟩

theorem headerOnly_iff {m : Message} :
    m.HeaderOnly ↔ ∃ t header, m = unknown t header ∧ isKnownType t.toNat = true := by
  constructor
  · intro h
    cases m with
    | unknown t header => exact ⟨t, header, rfl, h⟩
    | _ => exact h.elim
  · rintro ⟨t, header, rfl, h⟩
    exact h

/-- What can be encoded, how long it is, and how everything else is refused. -/
theorem encode_accepts (m : Message) :
    ((∃ bits, m.encode = .ok bits) ↔ (∀ d ∈ m.demands, d.Met) ∧ ¬ m.HeaderOnly) ∧
    (∀ bits, m.encode = .ok bits → bits.length = m.encodedLength) ∧
    ((∃ t fault, m.encode = .error (.unsupportedLayout t fault)) ↔
      ∃ t header, m = unknown t header ∧ isKnownType t.toNat = true ∧
        header.repeatIndicator.toNat < 4 ∧ header.mmsi.toNat < 2 ^ 30) ∧
    ∀ e, m.encode = .error e → (∃ t fault, e = .unsupportedLayout t fault) ∨
      firstRefusal? m.demands = some e ∧ ∃ field fault, e = .unencodable field fault := by
  have h := encodes m
  cases hfirst : firstRefusal? m.demands with
  | some e =>
    -- Some demand is not met.
    have he := h.refused e hfirst
    have hunmet : ¬ ∀ d ∈ m.demands, d.Met := by
      rw [← firstRefusal?_eq_none_iff, hfirst]
      nofun
    obtain ⟨field, fault, rfl⟩ := unencodable_of_firstRefusal? hfirst
    rw [he]
    refine ⟨⟨nofun, fun hmet => (hunmet hmet.1).elim⟩, nofun, ⟨nofun, ?_⟩, ?_⟩
    · rintro ⟨t, header, rfl, hknown, hfits⟩
      exact (hunmet ((met_of_headerOnly hknown).mpr hfits)).elim
    · intro e heq
      cases heq
      exact .inr ⟨rfl, field, fault, rfl⟩
  | none =>
    have hmet := firstRefusal?_eq_none_iff.mp hfirst
    by_cases hm : m.HeaderOnly
    · -- The header fits, and there should be more than a header.
      rw [h.headerOnly hfirst hm]
      refine ⟨⟨nofun, fun hok => (hok.2 hm).elim⟩, nofun, ⟨fun _ => ?_, fun _ => ⟨_, _, rfl⟩⟩, ?_⟩
      · obtain ⟨t, header, rfl, hknown⟩ := headerOnly_iff.mp hm
        exact ⟨t, header, rfl, hknown, (met_of_headerOnly hknown).mp hmet⟩
      · intro e heq
        cases heq
        exact .inl ⟨_, _, rfl⟩
    · obtain ⟨bits, hok, hlen⟩ := h.encoded hfirst hm
      rw [hok]
      refine ⟨⟨fun _ => ⟨hmet, hm⟩, fun _ => ⟨bits, rfl⟩⟩, ?_, ⟨nofun, ?_⟩, nofun⟩
      · intro bits heq
        cases heq
        exact hlen
      · rintro ⟨t, header, rfl, hknown, -⟩
        exact (hm hknown).elim

/-- The buoy has room for all its fields, and seven characters behind its name; the header alone of a
type 5 is refused, and so is a type 25 with more bits than a slot. -/
theorem encode_accepts_buoy :
    (∃ bits, (aidToNavigationReport buoy).encode = .ok bits ∧ bits.length = 314) ∧
    (∃ t fault, (unknown 5 { mmsi := 7 }).encode = .error (.unsupportedLayout t fault)) ∧
    (singleSlotBinary ⟨{}, some 1, none, .ofList (List.replicate 99 true)⟩).encode =
      .error (.unencodable "data" (.beyondSlot 169)) := by
  obtain ⟨hbuoy, hlength, -, -⟩ := encode_accepts (aidToNavigationReport buoy)
  obtain ⟨-, -, hheader, -⟩ := encode_accepts (unknown 5 { mmsi := 7 })
  have hmet := firstRefusal?_eq_none_iff.mp
    (by decide +kernel : firstRefusal? (aidToNavigationReport buoy).demands = none)
  obtain ⟨bits, hok⟩ := hbuoy.mpr ⟨hmet, id⟩
  refine ⟨⟨bits, hok, (hlength bits hok).trans (by decide +kernel)⟩,
    hheader.mpr ⟨5, _, rfl, by decide, by decide, by decide⟩, ?_⟩
  exact (encodes _).refused _ (by decide +kernel)

end Message

end Transponder

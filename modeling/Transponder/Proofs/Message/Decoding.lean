import Transponder.Proofs.Layout.Located

/-!
# What decoding a message accepts and gives

A sequence of bits is a message exactly if it is as long as the layout of its type requires
(`decode_accepts`): every layout reads a sequence that has the least length of its type, whatever the
bits are, and nothing but the number of a part of type 24 is refused for its value. What decoding
gives is what the published table of offsets gives (`decode_follows_offsets`). Both follow type by
type from the laws of the layouts (`readBody_needs`).
-/

namespace Transponder.Message

/-- The number of the type of a sequence of bits. -/
def typeNumber (b : Bits) : Nat :=
  Bits.value (b.window 0 6)

/-- The number of the part of type 24. -/
def partNumber (b : Bits) : Nat :=
  Bits.value (b.window 38 2)

/-- The least length of a message of a type; there are no parts of type 24 but A and B. -/
def leastLength (b : Bits) : Nat → Option Nat
  | 1 | 2 | 3 | 4 | 9 | 11 | 18 | 22 => some 168
  | 5 => some 420
  | 6 | 15 => some 88
  | 7 | 12 | 13 => some 72
  | 8 => some 56
  | 10 | 20 => some 70
  | 14 => some 40
  | 16 => some 92
  | 17 => some 80
  | 19 => some 312
  | 21 => some 272
  | 23 => some 160
  | 24 => match partNumber b with
    | 0 => some 160
    | 1 => some 162
    | _ => none
  | 25 => some (40 + 30 * (b.bit 38).toNat + 16 * (b.bit 39).toNat)
  | 26 => some (60 + 30 * (b.bit 38).toNat + 16 * (b.bit 39).toNat)
  | 27 => some 96
  | _ => some 38

/-- Whether type 24 announces a part that there is not. -/
def UnknownPart (b : Bits) : Prop :=
  typeNumber b = 24 ∧ 40 ≤ b.length ∧ 2 ≤ partNumber b

variable {b : Bits}

open Layout

theorem headerOnly_needs {make : Header → Message} :
    Needs b (Layout.header.mapped make).read 6 38 (do return make (← Offsets.header b)) :=
  (header_reads.needs Iff.rfl fun _ => rfl).mapped

/-- The layout of each type reads the fields of the table from a message of the least length. -/
theorem readBody_needs (messageType least : Nat) (h : leastLength b messageType = some least) :
    Needs b (readBody messageType) 6 least (Offsets.body b messageType) := by
  match messageType, h with
  | 1, rfl => exact (positionReport_reads.needs Iff.rfl fun _ => rfl).mapped
  | 2, rfl => exact (positionReport_reads.needs Iff.rfl fun _ => rfl).mapped
  | 3, rfl => exact (positionReport_reads.needs Iff.rfl fun _ => rfl).mapped
  | 4, rfl => exact (baseStationReport_reads.needs Iff.rfl fun _ => rfl).mapped
  | 5, rfl => exact staticVoyageData_needs.mapped
  | 6, rfl => exact addressedBinary_needs.mapped
  | 7, rfl => exact acknowledge_needs.mapped
  | 8, rfl => exact binaryBroadcast_needs.mapped
  | 9, rfl => exact (sarAircraftReport_reads.needs Iff.rfl fun _ => rfl).mapped
  | 10, rfl => exact utcInquiry_needs.mapped
  | 11, rfl => exact (baseStationReport_reads.needs Iff.rfl fun _ => rfl).mapped
  | 12, rfl => exact addressedSafety_needs.mapped
  | 13, rfl => exact acknowledge_needs.mapped
  | 14, rfl => exact safetyBroadcast_needs.mapped
  | 15, rfl => exact interrogation_needs.mapped
  | 16, rfl => exact assignmentModeCommand_needs.mapped
  | 17, rfl => exact dgnssBroadcast_needs.mapped
  | 18, rfl => exact (classBPositionReport_reads.needs Iff.rfl fun _ => rfl).mapped
  | 19, rfl => exact (extendedClassBReport_reads.needs Iff.rfl fun _ => rfl).mapped
  | 20, rfl => exact dataLinkManagement_needs.mapped
  | 21, rfl => exact aidToNavigationReport_needs.mapped
  | 22, rfl => exact (channelManagement_reads.needs Iff.rfl fun _ => rfl).mapped
  | 23, rfl => exact (groupAssignmentCommand_reads.needs Iff.rfl fun _ => rfl).mapped
  | 24, h =>
    simp only [leastLength] at h
    split at h
    · cases h
      exact (staticDataReport_needs_a ‹_›).mapped
    · cases h
      exact (staticDataReport_needs_b ‹_›).mapped
    · cases h
  | 25, rfl => exact singleSlotBinary_needs.mapped
  | 26, rfl => exact multipleSlotBinary_needs.mapped
  | 27, rfl => exact (longRangeReport_reads.needs Iff.rfl fun _ => rfl).mapped
  | 0, rfl => exact headerOnly_needs
  | _ + 28, rfl => exact headerOnly_needs

/-! ## Which sequences are messages -/

theorem leastLength_ge {messageType least : Nat} (h : leastLength b messageType = some least) :
    38 ≤ least := by
  unfold leastLength at h
  repeat' split at h
  all_goals simp at h
  all_goals omega

theorem leastLength_eq_none_iff {messageType : Nat} :
    leastLength b messageType = none ↔ messageType = 24 ∧ 2 ≤ partNumber b := by
  by_cases ht : messageType = 24
  · subst ht
    simp only [leastLength, true_and]
    split
    · rename_i h
      simp [h]
    · rename_i h
      simp [h]
    · rename_i h₀ h₁
      have h₀ : partNumber b ≠ 0 := h₀
      have h₁ : partNumber b ≠ 1 := h₁
      simp only [true_iff]
      omega
  · unfold leastLength
    split
    all_goals simp_all

theorem typeNumber_lt : typeNumber b < 64 :=
  Bits.value_lt (b.window 0 6)

theorem decode_of_short (h : b.length < 6) : decode b = .error (.truncated 0 6 b.length) := by
  have hu : Layout.answered ((Reader.start b).uint typeWidth) =
      .error (.truncated 0 6 b.length) := by
    show Layout.answered ((Reader.start b).advance 6 (b.uintAt 0 6)) = _
    rw [Bits.uintAt_spans.short (by omega)]
    rfl
  rw [decode, hu]
  rfl

theorem decode_eq_map (h : 6 ≤ b.length) :
    decode b = (readBody (typeNumber b) ⟨b, 6⟩).map Prod.fst := by
  have hu : Layout.answered ((Reader.start b).uint typeWidth) = .ok (typeNumber b, ⟨b, 6⟩) := by
    show Layout.answered ((Reader.start b).advance 6 (b.uintAt 0 6)) = _
    rw [Bits.uintAt_eq_ok (by omega)]
    rfl
  rw [decode, hu]
  show (readBody (typeNumber b) ⟨b, 6⟩ >>= _) = _
  cases readBody (typeNumber b) ⟨b, 6⟩ <;> rfl

theorem decode_of_le {least : Nat} (h : leastLength b (typeNumber b) = some least)
    (hl : least ≤ b.length) :
    ∃ m, decode b = .ok m ∧ Offsets.body b (typeNumber b) = .ok m := by
  have h38 := leastLength_ge h
  obtain ⟨m, r, hr, hm⟩ := (readBody_needs _ least h).ok hl
  exact ⟨m, by rw [decode_eq_map (by omega), hr]; rfl, hm⟩

theorem decode_of_lt {least : Nat} (h : leastLength b (typeNumber b) = some least)
    (hl : b.length < least) : ∃ e, decode b = .error e ∧ b.Exceeds e := by
  rcases Nat.lt_or_ge b.length 6 with h₆ | h₆
  · exact ⟨_, decode_of_short h₆, _, _, rfl, by omega⟩
  · obtain ⟨e, he, hx⟩ := (readBody_needs _ least h).short h₆ hl
    exact ⟨e, by rw [decode_eq_map h₆, he]; rfl, hx⟩

/-- A message of type 24 with a number that is not that of a part. -/
theorem decode_of_unknownPart (h : UnknownPart b) :
    decode b = .error (.unsupportedLayout 24 (.partNumber (partNumber b))) := by
  obtain ⟨ht, hl, hp⟩ := h
  rw [decode_eq_map (by omega), ht]
  show (((Layout.staticDataReport.read ⟨b, 6⟩).map _).map Prod.fst) = _
  rw [staticDataReport_unsupported hp hl]
  rfl

/-- A message of type 24 that ends before the number of its part. -/
theorem decode_of_short_part (ht : typeNumber b = 24) (hl : b.length < 40) :
    ∃ e, decode b = .error e ∧ b.Exceeds e := by
  rcases Nat.lt_or_ge b.length 6 with h₆ | h₆
  · exact ⟨_, decode_of_short h₆, _, _, rfl, by omega⟩
  · obtain ⟨e, he, hx⟩ := staticDataReport_short h₆ hl
    refine ⟨e, ?_, hx⟩
    rw [decode_eq_map h₆, ht]
    show (((Layout.staticDataReport.read ⟨b, 6⟩).map _).map Prod.fst) = _
    rw [he]
    rfl

/-- Either the sequence has the least length of its type and is a message, or it is refused. -/
theorem decode_cases (b : Bits) :
    (∃ least m, leastLength b (typeNumber b) = some least ∧ least ≤ b.length ∧ decode b = .ok m) ∨
      ∃ e, decode b = .error e ∧
        ((UnknownPart b ∧ e = .unsupportedLayout 24 (.partNumber (partNumber b))) ∨
          (¬ UnknownPart b ∧ b.Exceeds e)) := by
  cases h : leastLength b (typeNumber b) with
  | none =>
    obtain ⟨ht, hp⟩ := leastLength_eq_none_iff.mp h
    rcases Nat.lt_or_ge b.length 40 with hl | hl
    · obtain ⟨e, he, hx⟩ := decode_of_short_part ht hl
      have hn : ¬ UnknownPart b := fun hu => by have := hu.2.1; omega
      exact .inr ⟨e, he, .inr ⟨hn, hx⟩⟩
    · have hu : UnknownPart b := ⟨ht, hl, hp⟩
      exact .inr ⟨_, decode_of_unknownPart hu, .inl ⟨hu, rfl⟩⟩
  | some least =>
    rcases Nat.lt_or_ge b.length least with hl | hl
    · have hn : ¬ UnknownPart b := fun hu => by
        rw [leastLength_eq_none_iff.mpr ⟨hu.1, hu.2.2⟩] at h
        cases h
      obtain ⟨e, he, hx⟩ := decode_of_lt h hl
      exact .inr ⟨e, he, .inr ⟨hn, hx⟩⟩
    · obtain ⟨m, hm, -⟩ := decode_of_le h hl
      exact .inl ⟨least, m, rfl, hl, hm⟩

theorem exists_leastLength {m : Message} (h : decode b = .ok m) :
    ∃ least, leastLength b (typeNumber b) = some least ∧ least ≤ b.length := by
  rcases decode_cases b with ⟨least, m', hl, hle, -⟩ | ⟨e, he, -⟩
  · exact ⟨least, hl, hle⟩
  · rw [h] at he
    cases he

/-- A sequence of bits is a message exactly if it has the least length of its type. All others are
refused for ending too early, but for those whose part of type 24 has no layout. -/
theorem decode_accepts (b : Bits) :
    ((∃ m, decode b = .ok m) ↔
      ∃ least, leastLength b (typeNumber b) = some least ∧ least ≤ b.length) ∧
    ∀ e, decode b = .error e →
      (UnknownPart b ∧ e = .unsupportedLayout 24 (.partNumber (partNumber b))) ∨
      (¬ UnknownPart b ∧ b.Exceeds e) := by
  refine ⟨⟨fun ⟨m, hm⟩ => exists_leastLength hm, fun ⟨least, h, hl⟩ => ?_⟩, fun e he => ?_⟩
  · exact (decode_of_le h hl).imp fun _ hm => hm.1
  · rcases decode_cases b with ⟨least, m, -, -, hm⟩ | ⟨e', he', hx⟩
    · rw [he] at hm
      cases hm
    · rw [he] at he'
      cases he'
      exact hx

/-! ## What decoding gives -/

/-- Whatever an expression in absolute reads gives has a property. -/
def Gives {α : Type} (x : Except Error α) (P : α → Prop) : Prop :=
  ∀ a, x = .ok a → P a

theorem Gives.pure {α : Type} {a : α} {P : α → Prop} (h : P a) : Gives (pure a) P := by
  intro a' ha
  cases ha
  exact h

theorem Gives.bind {α β : Type} {x : Except Error α} {f : α → Except Error β} {P : β → Prop}
    (hf : ∀ a, x = .ok a → Gives (f a) P) : Gives (x >>= f) P := by
  intro c hc
  cases hx : x with
  | error e => rw [hx] at hc; cases hc
  | ok a => rw [hx] at hc; exact hf a hx c hc

/-- The table reads the header of every type in one way. -/
theorem body_gives_header (messageType : Nat) :
    Gives (Offsets.body b messageType) fun m => Offsets.header b = .ok m.header := by
  unfold Offsets.body
  split
  all_goals
    try simp only [Offsets.positionReport, Offsets.baseStationReport, Offsets.sarAircraftReport,
      Offsets.classBPositionReport, Offsets.extendedClassBReport, Offsets.longRangeReport,
      Offsets.staticVoyageData, Offsets.aidToNavigationReport, Offsets.staticDataReport,
      Offsets.addressedBinary, Offsets.acknowledge, Offsets.binaryBroadcast,
      Offsets.addressedSafety, Offsets.safetyBroadcast, Offsets.dgnssBroadcast,
      Offsets.singleSlotBinary, Offsets.multipleSlotBinary, Offsets.utcInquiry,
      Offsets.interrogation, Offsets.assignmentModeCommand, Offsets.dataLinkManagement,
      Offsets.channelManagement, Offsets.groupAssignmentCommand, bind_assoc, pure_bind]
    refine .bind fun header h => ?_
    repeat refine .bind fun _ _ => ?_
    exact .pure h

theorem body_gives_messageType {messageType : Nat} (h : messageType < 64) :
    Gives (Offsets.body b messageType) fun m => m.messageType.toNat = messageType := by
  unfold Offsets.body
  split
  all_goals refine .bind fun _ _ => .pure ?_
  all_goals try rfl
  exact UInt8.toNat_ofNat_of_lt' (Nat.lt_trans h (by decide))

/-- A message that is decoded is what the table of offsets finds for the type of its bits. -/
theorem body_of_decode {m : Message} (h : decode b = .ok m) :
    Offsets.body b (typeNumber b) = .ok m ∧ b.uintAt 0 6 = .ok (typeNumber b) ∧
      m.messageType.toNat = typeNumber b := by
  obtain ⟨least, hl, hle⟩ := exists_leastLength h
  obtain ⟨m', hm, hb⟩ := decode_of_le hl hle
  obtain rfl : m' = m := Except.ok.inj (hm.symm.trans h)
  have h38 := leastLength_ge hl
  exact ⟨hb, Bits.uintAt_eq_ok (by omega), body_gives_messageType typeNumber_lt m' hb⟩

/-- A message that is decoded has the type, the header and all the fields that the table of offsets
finds in the bits. -/
theorem decode_follows_offsets {m : Message} (h : decode b = .ok m) :
    b.uintAt 0 6 = .ok m.messageType.toNat ∧ peekType b = .ok m.messageType.toNat ∧
      Offsets.header b = .ok m.header ∧ Offsets.message b = .ok m := by
  obtain ⟨hb, hu, ht⟩ := body_of_decode h
  refine ⟨by rw [hu, ht], by rw [peekType, typeWidth, hu, ht], body_gives_header _ m hb, ?_⟩
  rw [Offsets.message, hu]
  exact hb

theorem eq_ok_of_toOption {α : Type} {x : Except Error α} {a : α} (h : x.toOption = some a) :
    x = .ok a := by
  cases x with
  | error e => cases h
  | ok a' => exact congrArg Except.ok (Option.some.inj h)

/-- A question to two stations, three requests in all. -/
def threeRequests : Bits :=
  [(15, 6), (1, 2), (2655651, 30), (0, 2), (265547250, 30), (5, 6), (17, 12), (0, 2), (24, 6),
    (0, 12), (0, 2), (230000123, 30), (3, 6), (4095, 12), (0, 2)].foldl
      (fun b field => b.pushUint field.1 field.2) .empty

theorem decode_follows_offsets_threeRequests :
    let m : Message := .interrogation {
      header := { repeatIndicator := 1, mmsi := 2655651 }
      mmsi := 265547250
      firstRequest := { messageType := 5, slotOffset := 17 }
      secondRequest := some { messageType := 24, slotOffset := 0 }
      second := some { mmsi := 230000123, request := { messageType := 3, slotOffset := 4095 } } }
    decode threeRequests = .ok m ∧ threeRequests.uintAt 0 6 = .ok 15 ∧
      peekType threeRequests = .ok 15 ∧ Offsets.header threeRequests = .ok m.header ∧
      Offsets.message threeRequests = .ok m := by
  intro m
  have h : decode threeRequests = .ok m := eq_ok_of_toOption (by decide +kernel)
  exact ⟨h, decode_follows_offsets h⟩

end Transponder.Message

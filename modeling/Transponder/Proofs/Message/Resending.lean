import Transponder.Proofs.Layout.Resent
import Transponder.Proofs.Message.RoundTrip

/-!
# What was received can be sent again

A message without quantities that was decoded from any bits is encoded again, with one exception: a
message of type 25 may be longer than the slot that it has to be sent in. What is encoded is decoded
to the same message, and the bits of application data are those that were received
(`encode_of_decode`). Type by type this is what the layouts say of the fields that the table of
offsets finds (`body_gives_resent`).
-/

namespace Transponder.Message

-- Powers are those of `Nat` and `Int` themselves.
attribute [local instance (high)] instPowNat

open Layout

/-- A message of whole numbers, flags, texts and data. -/
def Discrete : Message → Prop
  | addressedBinary _ | binaryAcknowledge _ | binaryBroadcast _ | utcInquiry _ | addressedSafety _
  | safetyAcknowledge _ | safetyBroadcast _ | interrogation _ | assignmentModeCommand _
  | dataLinkManagement _ | staticDataReport _ | singleSlotBinary _ | multipleSlotBinary _
  | unknown _ _ => True
  | channelManagement m => ∃ first second, m.area = .addressed first second
  | _ => False

/-- The layout of `m` keeps all bits but the spare ones, and those are zero in `b`. -/
def Verbatim (b : Bits) : Message → Prop
  | addressedBinary _ => b.bit 71 = false
  | binaryBroadcast _ => b.bit 38 = false ∧ b.bit 39 = false
  | singleSlotBinary _ | multipleSlotBinary _ => True
  | _ => False

/-- Whether `m`, read from `b`, does not fit into the one slot that it has. -/
def Overlong (b : Bits) (m : Message) : Prop :=
  m.messageType = 25 ∧ slotLength < b.length

variable {b : Bits} {m : Message}

/-- What becomes of `m`, read from `b`, when it is written again behind the number of its type. -/
structure ResentBody (b : Bits) (m : Message) : Prop where
  refused : Overlong b m → ∀ w, w.bits.length = 6 →
    m.writeBody w = .error (.unencodable "data" (.beyondSlot b.length))
  written : ¬ Overlong b m → ∀ w, w.bits.length = 6 → ∃ w', m.writeBody w = .ok (m, w') ∧
    (Verbatim b m → w'.bits = w.bits.append (b.window 6 (b.length - 6)))

/-! ## Type by type -/

theorem ResentBody.of_writeBody (ht : m.messageType ≠ 25) (hv : ¬ Verbatim b m)
    (h : ∀ w, ∃ w', m.writeBody w = .ok (m, w')) : ResentBody b m where
  refused ho := absurd ho.1 ht
  written _ w _ := (h w).imp fun _ hw => ⟨hw, fun h => absurd h hv⟩

theorem ResentBody.of_writes {σ α : Type} {l : Layout σ α} {make : α → Message} {s : σ} {a : α}
    (h : ∃ xs, Writes l s xs a) (hw : (make a).writeBody = (l.mapped make).write s)
    (ht : (make a).messageType ≠ 25) (hv : ¬ Verbatim b (make a)) : ResentBody b (make a) :=
  .of_writeBody ht hv fun w => by
    obtain ⟨xs, hxs⟩ := h
    exact ⟨_, by rw [hw]; exact hxs.mapped w⟩

theorem ResentBody.of_verbatim {σ α : Type} {l : Layout σ α} {make : α → Message} {s : σ} {a : α}
    {xs : List Bool} (h : Writes l s xs a) (hw : (make a).writeBody = (l.mapped make).write s)
    (ht : (make a).messageType ≠ 25)
    (hv : Verbatim b (make a) → xs = b.window 6 (b.length - 6)) : ResentBody b (make a) where
  refused ho := absurd ho.1 ht
  written _ w _ := ⟨_, by rw [hw]; exact h.mapped w, fun hb => by rw [hv hb]⟩

theorem resentBody_addressedBinary {m : AddressedBinary} (hl : 88 ≤ b.length)
    (h : Offsets.addressedBinary b = .ok m) : ResentBody b (addressedBinary m) := by
  refine .of_verbatim (addressedBinary_resent m h) rfl (by decide : (6 : UInt8) ≠ 25) fun hv => ?_
  have hbit : [false] = b.window 71 1 := congrArg (fun x => [x]) (Eq.symm hv)
  rw [← List.singleton_append, hbit, Bits.window_append rfl, Bits.window_append rfl]
  congr 1
  omega

theorem resentBody_binaryBroadcast {m : BinaryBroadcast} (hl : 56 ≤ b.length)
    (h : Offsets.binaryBroadcast b = .ok m) : ResentBody b (binaryBroadcast m) := by
  refine .of_verbatim (binaryBroadcast_resent m h) rfl (by decide : (8 : UInt8) ≠ 25) fun hv => ?_
  obtain ⟨hfirst, hsecond⟩ := hv
  have hbits : b.window 38 2 = [false, false] := by
    show [b.bit 38, b.bit 39] = _
    rw [hfirst, hsecond]
  show b.window 6 32 ++ ([false, false] ++ b.window 40 (b.length - 40)) = _
  rw [← hbits, Bits.window_append rfl, Bits.window_append rfl]
  congr 1
  omega

theorem resentBody_singleSlotBinary {m : SingleSlotBinary}
    (h : Offsets.singleSlotBinary b = .ok m) : ResentBody b (singleSlotBinary m) := by
  have hwrite : ∀ w, (singleSlotBinary m).writeBody w =
      (Layout.singleSlotBinary.write m w).map fun x => (singleSlotBinary x.1, x.2) := fun _ => rfl
  refine ⟨fun ho w hw => ?_, fun ho w hw => ?_⟩
  · rw [hwrite, singleSlotBinary_resent m h w hw, if_neg (Nat.not_le.mpr ho.2)]
    rfl
  · have hle : b.length ≤ slotLength := Nat.not_lt.mp fun hlt => ho ⟨rfl, hlt⟩
    rw [hwrite, singleSlotBinary_resent m h w hw, if_pos hle]
    exact ⟨_, rfl, fun _ => rfl⟩

theorem resentBody_dataLinkManagement {m : DataLinkManagement} (hl : 70 ≤ b.length)
    (h : Offsets.dataLinkManagement b = .ok m) : ResentBody b (dataLinkManagement m) := by
  refine .of_writeBody (by decide : (20 : UInt8) ≠ 25) (fun hv => hv) fun w => ?_
  obtain ⟨w', hw⟩ := dataLinkManagement_resent hl m h w
  refine ⟨w', ?_⟩
  show (Layout.dataLinkManagement.write m w).map _ = _
  rw [hw]
  rfl

theorem resentBody_unknown {n : Nat} {header : Header} (hn : n < 64)
    (hk : isKnownType n = false) (h : Offsets.header b = .ok header) :
    ResentBody b (unknown (UInt8.ofNat n) header) := by
  have hnat : (UInt8.ofNat n).toNat = n :=
    UInt8.toNat_ofNat_of_lt' (Nat.lt_trans hn (by decide))
  refine .of_writeBody (fun ht => ?_) (fun hv => hv) fun w => ?_
  · rw [← hnat, show UInt8.ofNat n = 25 from ht] at hk
    exact absurd hk (by decide)
  · refine ⟨⟨w.bits.append (b.window 6 32)⟩, ?_⟩
    show (Layout.header.write header w >>= _) = _
    rw [header_resent header h w]
    show (if isKnownType (UInt8.ofNat n).toNat then _ else _) = _
    rw [hnat, hk]
    rfl

/-- The table reads nothing that could not be written again. -/
theorem body_gives_resent {messageType least : Nat} (ht : messageType < 64)
    (h : leastLength b messageType = some least) (hl : least ≤ b.length) :
    Gives (Offsets.body b messageType) fun m => m.Discrete → ResentBody b m := by
  match messageType, h with
  | 1, _ | 2, _ | 3, _ | 4, _ | 5, _ | 9, _ | 11, _ | 17, _ | 18, _ | 19, _ | 21, _ | 23, _
  | 27, _ => exact .bind fun _ _ => .pure fun hd => hd.elim
  | 6, rfl => exact .bind fun _ h => .pure fun _ => resentBody_addressedBinary hl h
  | 7, rfl =>
    exact .bind fun m h => .pure fun _ =>
      .of_writes (acknowledge_resent hl m h) rfl (by decide : (7 : UInt8) ≠ 25) id
  | 8, rfl => exact .bind fun _ h => .pure fun _ => resentBody_binaryBroadcast hl h
  | 10, rfl =>
    exact .bind fun m h => .pure fun _ =>
      .of_writes (utcInquiry_resent m h) rfl (by decide : (10 : UInt8) ≠ 25) id
  | 12, rfl =>
    exact .bind fun m h => .pure fun _ =>
      .of_writes (addressedSafety_resent m h) rfl (by decide : (12 : UInt8) ≠ 25) id
  | 13, rfl =>
    exact .bind fun m h => .pure fun _ =>
      .of_writes (acknowledge_resent hl m h) rfl (by decide : (13 : UInt8) ≠ 25) id
  | 14, rfl =>
    exact .bind fun m h => .pure fun _ =>
      .of_writes (safetyBroadcast_resent m h) rfl (by decide : (14 : UInt8) ≠ 25) id
  | 15, rfl =>
    exact .bind fun m h => .pure fun _ =>
      .of_writes (interrogation_resent m h) rfl (by decide : (15 : UInt8) ≠ 25) id
  | 16, rfl =>
    exact .bind fun m h => .pure fun _ =>
      .of_writes (assignmentModeCommand_resent m h) rfl (by decide : (16 : UInt8) ≠ 25) id
  | 20, rfl => exact .bind fun _ h => .pure fun _ => resentBody_dataLinkManagement hl h
  | 22, rfl =>
    exact .bind fun m h => .pure fun ⟨first, second, harea⟩ =>
      .of_writes (channelManagement_resent m h first second harea) rfl
        (by decide : (22 : UInt8) ≠ 25) id
  | 24, _ =>
    exact .bind fun m h => .pure fun _ =>
      .of_writes (staticDataReport_resent m h) rfl (by decide : (24 : UInt8) ≠ 25) id
  | 25, rfl => exact .bind fun _ h => .pure fun _ => resentBody_singleSlotBinary h
  | 26, rfl =>
    refine .bind fun m h => .pure fun _ => .of_verbatim (multipleSlotBinary_resent ?_ m h) rfl
      (by decide : (26 : UInt8) ≠ 25) fun _ => rfl
    unfold Offsets.dataOffset Offsets.applicationOffset
    omega
  | 0, _ => exact .bind fun _ h => .pure fun _ => resentBody_unknown (by decide) rfl h
  | n + 28, _ =>
    refine .bind fun _ h => .pure fun _ => resentBody_unknown ht ?_ h
    rw [isKnownType, maxKnownType, Bool.and_eq_false_iff]
    exact .inr (decide_eq_false (by omega))

/-! ## Messages -/

/-- A message that was decoded is written behind the type of its bits. -/
theorem encode_eq_map (h : decode b = .ok m) :
    m.encode = (m.writeBody ⟨.ofList (b.window 0 6)⟩).map fun x => x.2.bits := by
  obtain ⟨-, hread, htype⟩ := body_of_decode h
  have hu : b.uintAt 0 6 = .ok m.messageType.toNat := htype ▸ hread
  have hw : Layout.answered (Writer.empty.uint "message_type" m.messageType.toNat typeWidth) =
      .ok ((), ⟨.ofList (b.window 0 6)⟩) := by
    have hlt : m.messageType.toNat < 2 ^ typeWidth := Bits.lt_of_uintAt hu
    rw [Writer.uint, if_neg (Nat.not_le.mpr hlt)]
    show Except.ok ((), Writer.mk (Bits.append _ (Bits.digits _ 6))) = _
    rw [Bits.digits_of_uintAt hu]
    rfl
  rw [encode, hw]
  show (m.writeBody _ >>= _) = _
  cases m.writeBody ⟨.ofList (b.window 0 6)⟩ <;> rfl

theorem resentBody_of_decode (h : decode b = .ok m) (hd : m.Discrete) : ResentBody b m := by
  obtain ⟨least, hl, hle⟩ := exists_leastLength h
  obtain ⟨m', hm, hb⟩ := decode_of_le hl hle
  obtain rfl : m' = m := Except.ok.inj (hm.symm.trans h)
  exact body_gives_resent typeNumber_lt hl hle m' hb hd

/-- The bits of the type and those behind it. -/
theorem append_windows (h : 6 ≤ b.length) :
    (Bits.ofList (b.window 0 6)).append (b.window 6 (b.length - 6)) = b := by
  refine Bits.ext_toList ?_
  rw [Bits.toList_append, Bits.toList_ofList, Bits.window_append rfl,
    show 6 + (b.length - 6) = b.length by omega]
  rfl

/-- What is answered when a message is written is the message as it is read back. -/
theorem normalised_of_writeBody {w w' : Writer} (hp : w.bits.length = 6)
    (h : m.writeBody w = .ok (m, w')) : m.normalised = m :=
  (keepsBody m w m w' hp h).1.symm

/-- A message without quantities that was decoded is encoded again, unless it is of type 25 and has
more bits than a slot; then its data is refused. The bits of an encoded one stand for the same
message, and if nothing but zeros is lost they are the bits that were decoded. -/
theorem encode_of_decode (h : decode b = .ok m) (hd : m.Discrete) :
    ((∃ c, m.encode = .ok c) ↔ ¬ Overlong b m) ∧
      (Overlong b m → m.encode = .error (.unencodable "data" (.beyondSlot b.length))) ∧
      (∀ c, m.encode = .ok c → decode c = .ok m) ∧
      (Verbatim b m → ∀ c, m.encode = .ok c → c = b) := by
  have hbody := resentBody_of_decode h hd
  have hencode := encode_eq_map h
  have h6 : 6 ≤ b.length := by
    obtain ⟨least, hl, hle⟩ := exists_leastLength h
    have h38 := leastLength_ge hl
    omega
  have hp : (Writer.mk (.ofList (b.window 0 6))).bits.length = 6 := by
    show (Bits.ofList (b.window 0 6)).length = 6
    rw [Bits.length_ofList, Bits.length_window]
  have hrefused : Overlong b m →
      m.encode = .error (.unencodable "data" (.beyondSlot b.length)) := by
    intro ho
    rw [hencode, hbody.refused ho _ hp]
    rfl
  have hfits : ∀ c, m.encode = .ok c → ¬ Overlong b m := by
    intro c hc ho
    rw [hrefused ho] at hc
    cases hc
  refine ⟨⟨fun ⟨c, hc⟩ => hfits c hc, fun ho => ?_⟩, hrefused, fun c hc => ?_, fun hv c hc => ?_⟩
  · obtain ⟨w', hw, -⟩ := hbody.written ho _ hp
    exact ⟨w'.bits, by rw [hencode, hw]; rfl⟩
  · obtain ⟨w', hw, -⟩ := hbody.written (hfits c hc) _ hp
    rw [decode_of_isPrefix hc (List.prefix_refl _) (slack_sub_self m _),
      normalised_of_writeBody hp hw]
  · obtain ⟨w', hw, hbits⟩ := hbody.written (hfits c hc) _ hp
    rw [hencode, hw] at hc
    cases hc
    exact (hbits hv).trans (append_windows h6)

/-- A text with something behind its end, spare bits that are set, and bits that are no
character. -/
def untidyText : Bits :=
  [(14, 6), (3, 2), (2655651, 30), (3, 2), (8, 6), (32, 6), (9, 6), (32, 6), (0, 6), (24, 6),
    (32, 6), (5, 3)].foldl (fun b field => b.pushUint field.1 field.2) .empty

/-- Data that ends two bits behind the slot. -/
def overlongData : Bits :=
  [(25, 6), (0, 2), (2655651, 30), (0, 2), (2 ^ (129 : Nat) + 5, 130)].foldl
    (fun b field => b.pushUint field.1 field.2) .empty

theorem encode_of_decode_untidy :
    (∃ m c, decode untidyText = .ok m ∧
      m = .safetyBroadcast { header := { repeatIndicator := 3, mmsi := 2655651 }, text := "H I" } ∧
      m.encode = .ok c ∧ decode c = .ok m) ∧
    ∃ m, decode overlongData = .ok m ∧ m.messageType = 25 ∧
      m.encode = .error (.unencodable "data" (.beyondSlot 170)) := by
  constructor
  · have h : decode untidyText = .ok (.safetyBroadcast
        { header := { repeatIndicator := 3, mmsi := 2655651 }, text := "H I" }) :=
      eq_ok_of_toOption (by decide +kernel)
    obtain ⟨hok, -, hagain, -⟩ := encode_of_decode h trivial
    obtain ⟨c, hc⟩ := hok.mpr fun ho => absurd ho.1 (by decide)
    exact ⟨_, c, h, rfl, hc, hagain c hc⟩
  · have h : decode overlongData = .ok (.singleSlotBinary
        { header := { mmsi := 2655651 }, destination := none, application := none
          data := .ofList (Bits.digits (2 ^ (129 : Nat) + 5) 130) }) :=
      eq_ok_of_toOption (by decide +kernel)
    have hlength : overlongData.length = 170 := by decide +kernel
    have hrefused := (encode_of_decode h trivial).2.1 ⟨rfl, by rw [hlength]; decide⟩
    rw [hlength] at hrefused
    exact ⟨_, h, rfl, hrefused⟩

end Transponder.Message

import Transponder.Proofs.Layout.Writes
import Transponder.Proofs.Message.Decoding

/-!
# Records are written as they were read

What a layout without quantities has read it can write, and the answer is the record itself: the
numbers of the record fit into the fields that they come from, its texts have no character that the
wire lacks, and it has as many entries as a message of its type can hold. The bits are those that
were read with zeros for the spare ones, as far as the layout keeps all of them: data is written bit
by bit (`addressedBinary_resent`, `binaryBroadcast_resent`, `singleSlotBinary_resent`,
`multipleSlotBinary_resent`).
-/

namespace Transponder

namespace Bits

variable {α : Type} {b : Bits} {offset width p n m q : Nat}

theorem le_of_slice {data : Bits} (h : b.slice offset width = .ok data) :
    offset + width ≤ b.length := by
  refine Nat.not_lt.mp fun hlt => ?_
  rw [slice_spans.short hlt] at h
  cases h

theorem window_append (h : p + n = q) : b.window p n ++ b.window q m = b.window p (n + m) := by
  rw [← h, window_add]

theorem whenLength_eq_ok {least : Nat} {x : Except Error α} {o : Option α}
    (h : b.whenLength least x = .ok o) :
    (o.isSome = true ↔ least ≤ b.length) ∧ ∀ a ∈ o, x = .ok a := by
  unfold whenLength at h
  split at h
  case isTrue hle =>
    cases x with
    | error e => cases h
    | ok a => cases h; simpa using hle
  case isFalse hlt => cases h; simpa using hlt

theorem whenSet_eq_ok {present : Bool} {x : Except Error α} {o : Option α}
    (h : whenSet present x = .ok o) : o.isSome = present ∧ ∀ a ∈ o, x = .ok a := by
  cases present with
  | false => cases h; simp
  | true =>
    cases x with
    | error e => cases h
    | ok a => cases h; simp

end Bits

namespace Layout

open Message

variable {b : Bits} {p : Nat}

/-- Entries that were read one by one. -/
theorem mapM_eq_ok {α β : Type} {f : α → Except Error β} : ∀ {xs : List α} {ys : List β},
    xs.mapM f = .ok ys → ys.length = xs.length ∧ ∀ y ∈ ys, ∃ x ∈ xs, f x = .ok y
  | [], ys, h => by
    cases h
    exact ⟨rfl, fun _ hy => nomatch hy⟩
  | x :: xs, ys, h => by
    rw [List.mapM_cons] at h
    cases hx : f x with
    | error e => rw [hx] at h; cases h
    | ok y =>
      cases hxs : xs.mapM f with
      | error e => rw [hx, hxs] at h; cases h
      | ok ys' =>
        rw [hx, hxs] at h
        cases h
        obtain ⟨hlen, hmem⟩ := mapM_eq_ok hxs
        refine ⟨congrArg (· + 1) hlen, List.forall_mem_cons.mpr ⟨⟨x, List.mem_cons_self, hx⟩, ?_⟩⟩
        exact fun y hy => (hmem y hy).imp fun _ h => ⟨List.mem_cons_of_mem x h.1, h.2⟩

theorem header_resent : Gives (Offsets.header b) fun s => Writes header s (b.window 6 32) s :=
  .bind fun _ hrepeat => .bind fun _ hmmsi => .pure <|
    .cast ((word8_writes (by decide) hrepeat).on.bind <|
      (word32_writes (by decide) hmmsi).on.bind (.pure _))
      (by rw [List.append_nil]; exact Bits.window_append rfl)

/-! ## What a station sends to others -/

theorem applicationId_resent :
    Gives (Offsets.applicationId b p) fun s => Writes applicationId s (b.window p 16) s :=
  .bind fun _ hdac => .bind fun _ hfid => .pure <|
    .cast ((word16_writes (by decide) hdac).on.bind <|
      (word8_writes (by decide) hfid).on.bind (.pure _))
      (by rw [List.append_nil]; exact Bits.window_append rfl)

/-- The bits behind the type, with a zero for the spare one in front of the application. -/
theorem addressedBinary_resent : Gives (Offsets.addressedBinary b) fun m =>
    Writes addressedBinary m (b.window 6 65 ++ false :: b.window 72 (b.length - 72)) m :=
  .bind fun _ hheader => .bind fun _ hsequence => .bind fun _ hdestination =>
  .bind fun _ hretransmit => .bind fun _ happlication => .bind fun data hdata => .pure <|
    .cast ((header_resent _ hheader).on.bind <| (word8_writes (by decide) hsequence).on.bind <|
      (word32_writes (by decide) hdestination).on.bind <| (flag_writes hretransmit).on.bind <|
      spare_writes.bind <| (applicationId_resent _ happlication).on.bind <|
      rest_writes.on.bind (.pure _)) (by
      have hle := Bits.le_of_slice hdata
      rw [Bits.toList_of_slice hdata, List.append_nil, Bits.window_append rfl,
        show 16 + (b.length - 88) = b.length - 72 by omega, ← List.append_assoc,
        ← List.append_assoc, ← List.append_assoc, Bits.window_append rfl, Bits.window_append rfl,
        Bits.window_append rfl]
      rfl)

theorem acknowledgement_resent :
    Gives (Offsets.acknowledgement b p) fun s => ∃ xs, Writes acknowledgement s xs s :=
  .bind fun _ hmmsi => .bind fun _ hsequence => .pure
    ⟨_, (word32_writes (by decide) hmmsi).on.bind <|
      (word8_writes (by decide) hsequence).on.bind (.pure _)⟩

/-- Entries that the table finds in a range. -/
theorem entries_resent {α : Type} {field expected : String} {width limit count start step : Nat}
    {item : Layout α α} {read : Nat → Except Error α} {as : List α}
    (h : (List.range' start count step).mapM read = .ok as) (hcount : 1 ≤ count ∧ count ≤ limit)
    (hitem : ∀ p, Gives (read p) fun a => ∃ xs, Writes item a xs a) :
    ∃ xs, Writes (entries field expected width limit item) as xs as := by
  obtain ⟨hlen, hmem⟩ := mapM_eq_ok h
  rw [List.length_range'] at hlen
  refine entries_writes (hlen ▸ hcount) fun a ha => ?_
  obtain ⟨p, -, hp⟩ := hmem a ha
  exact hitem p a hp

theorem acknowledge_resent (hl : 72 ≤ b.length) :
    Gives (Offsets.acknowledge b) fun m => ∃ xs, Writes acknowledge m xs m :=
  .bind fun _ hheader => .bind fun as has => .pure <| by
    obtain ⟨xs, hxs⟩ : ∃ xs, Writes (entries "acknowledgements" "1 to 4" 32 4 acknowledgement)
        as xs as :=
      entries_resent has (by omega) fun _ => acknowledgement_resent
    exact ⟨_, (header_resent _ hheader).on.bind <| spare_writes.bind <| hxs.on.bind (.pure _)⟩

/-- The bits behind the type, with zeros for the two spare ones. -/
theorem binaryBroadcast_resent : Gives (Offsets.binaryBroadcast b) fun m =>
    Writes binaryBroadcast m (b.window 6 32 ++ false :: false :: b.window 40 (b.length - 40)) m :=
  .bind fun _ hheader => .bind fun _ happlication => .bind fun data hdata => .pure <|
    .cast ((header_resent _ hheader).on.bind <| spare_writes.bind <|
      (applicationId_resent _ happlication).on.bind <| rest_writes.on.bind (.pure _)) (by
      have hle := Bits.le_of_slice hdata
      rw [Bits.toList_of_slice hdata, List.append_nil, Bits.window_append rfl,
        show 16 + (b.length - 56) = b.length - 40 by omega]
      rfl)

theorem addressedSafety_resent :
    Gives (Offsets.addressedSafety b) fun m => ∃ xs, Writes addressedSafety m xs m :=
  .bind fun _ hheader => .bind fun _ hsequence => .bind fun _ hdestination =>
  .bind fun _ hretransmit => .bind fun _ htext => .pure
    ⟨_, (header_resent _ hheader).on.bind <| (word8_writes (by decide) hsequence).on.bind <|
      (word32_writes (by decide) hdestination).on.bind <| (flag_writes hretransmit).on.bind <|
      spare_writes.bind <|
      (textRun_writes ((Bits.isFieldText_of_textAt htext).mono (Nat.min_le_right _ _))).on.bind
      (.pure _)⟩

theorem safetyBroadcast_resent :
    Gives (Offsets.safetyBroadcast b) fun m => ∃ xs, Writes safetyBroadcast m xs m :=
  .bind fun _ hheader => .bind fun _ htext => .pure
    ⟨_, (header_resent _ hheader).on.bind <| spare_writes.bind <|
      (textRun_writes ((Bits.isFieldText_of_textAt htext).mono (Nat.min_le_right _ _))).on.bind
      (.pure _)⟩

theorem recipient_resent : Gives (Offsets.recipient b) fun s =>
    Writes recipient s (b.window 38 (Offsets.dataOffset b - 38)) s :=
  .bind fun addressed haddressed => .bind fun structured hstructured => .bind fun destination hd =>
  .bind fun application ha => .pure <| by
    obtain ⟨hsome₁, hmem₁⟩ := Bits.whenSet_eq_ok hd
    obtain ⟨hsome₂, hmem₂⟩ := Bits.whenSet_eq_ok ha
    rw [← hsome₁] at haddressed
    rw [← hsome₂] at hstructured
    have hflag₁ : Writes (flag.on fun s : Option Mmsi × Option ApplicationId => s.1.isSome)
        (destination, application) (b.window 38 1) destination.isSome := flag_writes haddressed
    have hflag₂ : Writes (flag.on fun s : Option Mmsi × Option ApplicationId => s.2.isSome)
        (destination, application) (b.window 39 1) application.isSome := flag_writes hstructured
    refine .cast (hflag₁.bind <| hflag₂.bind <|
      (whenPresent_writes fun a h => word32_writes (by decide) (hmem₁ a h)).on.bind <|
      (whenPresent_writes fun a h => applicationId_resent a (hmem₂ a h)).on.bind (.pure _)) ?_
    rw [List.append_nil, Offsets.dataOffset, Offsets.applicationOffset,
      ← Bits.eq_bit_of_flagAt haddressed, ← Bits.eq_bit_of_flagAt hstructured]
    cases destination <;> cases application <;>
      simp [Bits.window_append]

theorem dataOffset_ge : 40 ≤ Offsets.dataOffset b := by
  unfold Offsets.dataOffset Offsets.applicationOffset
  omega

/-- The bits behind the type, if the message has no more than a slot has room for. -/
theorem singleSlotBinary_resent : Gives (Offsets.singleSlotBinary b) fun m =>
    ∀ w, w.bits.length = 6 → singleSlotBinary.write m w =
      if b.length ≤ slotLength then .ok (m, ⟨w.bits.append (b.window 6 (b.length - 6))⟩)
      else .error (.unencodable "data" (.beyondSlot b.length)) :=
  .bind fun header hheader => .bind fun (destination, application) hrecipient =>
  .bind fun data hdata => .pure fun w hw => by
    have hle := Bits.le_of_slice hdata
    have hge := dataOffset_ge (b := b)
    let m : SingleSlotBinary := { header, destination, application, data }
    have hto : Writes (recipient.on fun m : SingleSlotBinary => (m.destination, m.application)) m
        (b.window 38 (Offsets.dataOffset b - 38)) (destination, application) :=
      recipient_resent _ hrecipient
    have hbits : ((w.bits.append (b.window 6 32)).append
        (b.window 38 (Offsets.dataOffset b - 38))).append data.toList =
          w.bits.append (b.window 6 (b.length - 6)) := by
      rw [Bits.append, Bits.append, Bits.append, ← List.foldl_append, ← List.foldl_append,
        Bits.toList_of_slice hdata, Bits.window_append (by omega), Bits.window_append rfl,
        show 32 + (Offsets.dataOffset b - 38 + (b.length - Offsets.dataOffset b)) = b.length - 6 by
          omega]
      rfl
    have hlength : (w.bits.append (b.window 6 (b.length - 6))).length = b.length := by
      rw [Bits.length_append, Bits.length_window, hw]
      omega
    refine ((header_resent _ hheader).on.write_bind _ w).trans <| (hto.write_bind _ _).trans <|
      (rest_writes.on.write_bind _ _).trans ?_
    rw [hbits]
    show ((if (w.bits.append (b.window 6 (b.length - 6))).length ≤ slotLength then
      Except.ok () else _).map _).bind _ = _
    rw [hlength]
    split <;> rfl

/-- The bits behind the type, all of them. -/
theorem multipleSlotBinary_resent (hl : 20 + Offsets.dataOffset b ≤ b.length) :
    Gives (Offsets.multipleSlotBinary b) fun m =>
      Writes multipleSlotBinary m (b.window 6 (b.length - 6)) m :=
  .bind fun header hheader => .bind fun (destination, application) hrecipient =>
  .bind fun data hdata => .bind fun radioStatus hradio => .pure <| by
    have hge := dataOffset_ge (b := b)
    let m : MultipleSlotBinary := { header, destination, application, data, radioStatus }
    have hto : Writes (recipient.on fun m : MultipleSlotBinary => (m.destination, m.application)) m
        (b.window 38 (Offsets.dataOffset b - 38)) (destination, application) :=
      recipient_resent _ hrecipient
    refine .cast ((header_resent _ hheader).on.bind <| hto.bind <| restBefore_writes.on.bind <|
      (word32_writes (by decide) hradio).on.bind (.pure _)) ?_
    rw [List.append_nil, Bits.toList_of_slice hdata, Bits.window_append (by omega),
      Bits.window_append (by omega), Bits.window_append rfl]
    congr 1
    omega

/-! ## How the radio link is run -/

theorem utcInquiry_resent :
    Gives (Offsets.utcInquiry b) fun m => ∃ xs, Writes utcInquiry m xs m :=
  .bind fun _ hheader => .bind fun _ hdestination => .pure
    ⟨_, (header_resent _ hheader).on.bind <| spare_writes.bind <|
      (word32_writes (by decide) hdestination).on.bind <| filling_writes.bind (.pure _)⟩

theorem slotRequest_resent :
    Gives (Offsets.slotRequest b p) fun s => Writes slotRequest s (b.window p 18) s :=
  .bind fun _ htype => .bind fun _ hoffset => .pure <|
    .cast ((word8_writes (by decide) htype).on.bind <|
      (word16_writes (by decide) hoffset).on.bind (.pure _))
      (by rw [List.append_nil]; exact Bits.window_append rfl)

theorem secondRequest_resent : Gives (Offsets.slotRequest b p) fun s =>
    Writes secondRequest s
      (Bits.digits 0 2 ++ (b.window p 18 ++ (Bits.digits 0 2 ++ []))) s :=
  fun s hs => spare_writes.bind <| (slotRequest_resent s hs).bind <| spare_writes.bind (.pure _)

theorem secondInterrogation_resent : Gives (Offsets.secondInterrogation b p) fun s =>
    Writes secondInterrogation s
      (b.window p 30 ++ (b.window (p + 30) 18 ++ (Bits.digits 0 2 ++ []))) s :=
  .bind fun _ hmmsi => .bind fun _ hrequest => .pure <|
    (word32_writes (by decide) hmmsi).on.bind <| (slotRequest_resent _ hrequest).on.bind <|
    spare_writes.bind (.pure _)

/-- A message with a second station also has a second request. -/
theorem interrogation_resent :
    Gives (Offsets.interrogation b) fun m => ∃ xs, Writes interrogation m xs m :=
  .bind fun header hheader => .bind fun mmsi hmmsi => .bind fun firstRequest hfirst =>
  .bind fun secondRequest hsecond => .bind fun second hstation => .pure <| by
    obtain ⟨hsome₁, hmem₁⟩ := Bits.whenLength_eq_ok hsecond
    obtain ⟨hsome₂, hmem₂⟩ := Bits.whenLength_eq_ok hstation
    let m : Interrogation := { header, mmsi, firstRequest, secondRequest, second }
    have hwritten : writtenSecondRequest m = secondRequest := by
      cases hr : secondRequest with
      | some _ => simp [writtenSecondRequest, m, hr]
      | none =>
        have hnone : second = none := by
          rw [hr] at hsome₁
          rw [← Option.not_isSome_iff_eq_none, hsome₂]
          intro hle
          exact absurd (hsome₁.mpr (Nat.le_trans (by decide) hle)) (by decide)
        simp [writtenSecondRequest, m, hr, hnone]
    obtain ⟨xs, hxs⟩ : ∃ xs, Writes (whenLength 110 Layout.secondRequest) secondRequest xs
        secondRequest :=
      ⟨_, whenLength_writes fun s hs => secondRequest_resent s (hmem₁ s hs)⟩
    have hrequest : Writes ((whenLength 110 Layout.secondRequest).on writtenSecondRequest) m xs
        secondRequest :=
      .on (by rwa [hwritten])
    exact ⟨_, (header_resent _ hheader).on.bind <| spare_writes.bind <|
      (word32_writes (by decide) hmmsi).on.bind <| (slotRequest_resent _ hfirst).on.bind <|
      hrequest.bind <|
      (whenLength_writes fun s hs => secondInterrogation_resent s (hmem₂ s hs)).on.bind (.pure _)⟩

theorem slotAssignment_resent :
    Gives (Offsets.slotAssignment b p) fun s => ∃ xs, Writes slotAssignment s xs s :=
  .bind fun _ hmmsi => .bind fun _ hoffset => .bind fun _ hincrement => .pure
    ⟨_, (word32_writes (by decide) hmmsi).on.bind <| (word16_writes (by decide) hoffset).on.bind <|
      (word16_writes (by decide) hincrement).on.bind (.pure _)⟩

theorem assignmentModeCommand_resent :
    Gives (Offsets.assignmentModeCommand b) fun m => ∃ xs, Writes assignmentModeCommand m xs m :=
  .bind fun header hheader => .bind fun first hfirst => .bind fun second hsecond => .pure <| by
    obtain ⟨-, hmem⟩ := Bits.whenLength_eq_ok hsecond
    have hcount : 1 ≤ (first :: second.toList).length ∧ (first :: second.toList).length ≤ 2 := by
      cases second <;> simp
    have heach : ∀ s ∈ first :: second.toList, ∃ xs, Writes slotAssignment s xs s := by
      refine List.forall_mem_cons.mpr ⟨slotAssignment_resent _ hfirst, fun s hs => ?_⟩
      exact slotAssignment_resent _ (hmem s (Option.mem_toList.mp hs))
    obtain ⟨xs, hxs⟩ : ∃ xs, Writes (entries "assignments" "1 or 2" 52 2 slotAssignment)
        (first :: second.toList) xs (first :: second.toList) :=
      entries_writes hcount heach
    let m : AssignmentModeCommand := { header, assignments := first :: second.toList }
    have hentries : Writes ((entries "assignments" "1 or 2" 52 2 slotAssignment).on
        AssignmentModeCommand.assignments) m xs (first :: second.toList) := hxs
    exact ⟨_, (header_resent _ hheader).on.bind <| spare_writes.bind <| hentries.bind <|
      filling_writes.bind (.pure _)⟩

theorem slotReservation_resent :
    Gives (Offsets.slotReservation b p) fun s => ∃ xs, Writes slotReservation s xs s :=
  .bind fun _ hoffset => .bind fun _ hnumber => .bind fun _ htimeout => .bind fun _ hincrement =>
  .pure ⟨_, (word16_writes (by decide) hoffset).on.bind <|
    (word8_writes (by decide) hnumber).on.bind <| (word8_writes (by decide) htimeout).on.bind <|
    (word16_writes (by decide) hincrement).on.bind (.pure _)⟩

/-- The filling depends on what is written in front, so the bits are not those of every place. -/
theorem dataLinkManagement_resent (hl : 70 ≤ b.length) :
    Gives (Offsets.dataLinkManagement b) fun m => ∀ w, ∃ w',
      dataLinkManagement.write m w = .ok (m, w') :=
  .bind fun header hheader => .bind fun reservations hreservations => .pure fun w => by
    obtain ⟨xs, hxs⟩ : ∃ xs, Writes (entries "reservations" "1 to 4" 30 4 slotReservation)
        reservations xs reservations :=
      entries_resent hreservations (by omega) fun _ => slotReservation_resent
    let m : DataLinkManagement := { header, reservations }
    have hentries : Writes ((entries "reservations" "1 to 4" 30 4 slotReservation).on
        DataLinkManagement.reservations) m xs reservations := hxs
    exact ⟨_, ((header_resent _ hheader).on.write_bind _ w).trans <|
      (spare_writes.write_bind _ _).trans <| hentries.write_bind _ _⟩

theorem channelArea_resent : Gives (Offsets.channelArea b) fun area =>
    ∀ first second, area = .addressed first second → ∃ xs, Writes channelArea area xs area :=
  .bind fun x _ => match x with
    | true => .bind fun first hfirst => .bind fun second hsecond => .pure fun _ _ _ => by
      have harea : Writes addressedArea (first, second) _ (.addressed first second) :=
        (word32_writes (by decide) hfirst).on.bind <| spare_writes.bind <|
        (word32_writes (by decide) hsecond).on.bind <| spare_writes.bind <|
        fixedFlag_writes.bind (.pure _)
      exact ⟨_, harea⟩
    | false => .bind fun _ _ => .pure fun _ _ h => nomatch h

theorem channelManagement_resent : Gives (Offsets.channelManagement b) fun m =>
    ∀ first second, m.area = .addressed first second → ∃ xs, Writes channelManagement m xs m :=
  .bind fun _ hheader => .bind fun _ hchannelA => .bind fun _ hchannelB => .bind fun _ hmode =>
  .bind fun _ hpower => .bind fun _ harea => .bind fun _ hbandA => .bind fun _ hbandB =>
  .bind fun _ hzone => .pure fun first second hkind => by
    obtain ⟨xs, hxs⟩ := channelArea_resent _ harea first second hkind
    exact ⟨_, (header_resent _ hheader).on.bind <| spare_writes.bind <|
      (word16_writes (by decide) hchannelA).on.bind <|
      (word16_writes (by decide) hchannelB).on.bind <| (word8_writes (by decide) hmode).on.bind <|
      (flag_writes hpower).on.bind <| hxs.on.bind <|
      (flag_writes hbandA).on.bind <| (flag_writes hbandB).on.bind <|
      (word8_writes (by decide) hzone).on.bind <| spare_writes.bind (.pure _)⟩

/-! ## Ships -/

theorem dimensions_resent :
    Gives (Offsets.dimensions b p) fun s => ∃ xs, Writes dimensions s xs s :=
  .bind fun _ hbow => .bind fun _ hstern => .bind fun _ hport => .bind fun _ hstarboard => .pure
    ⟨_, (word16_writes (by decide) hbow).on.bind <| (word16_writes (by decide) hstern).on.bind <|
      (word8_writes (by decide) hport).on.bind <|
      (word8_writes (by decide) hstarboard).on.bind (.pure _)⟩

/-- The reference is of the kind that the sender has to make. -/
theorem reference_resent {sender : Mmsi} : Gives (Offsets.reference b sender p) fun s =>
    ∃ xs, Writes (reference sender) s xs s := by
  unfold Offsets.reference reference
  split
  case isTrue =>
    refine .bind fun mmsi hmmsi => .pure ⟨b.window p 30, fun w => ?_⟩
    exact (word32_writes (by decide) hmmsi).mapped w
  case isFalse =>
    refine .bind fun size hsize => .pure ?_
    obtain ⟨xs, hxs⟩ := dimensions_resent size hsize
    exact ⟨xs, fun w => hxs.mapped w⟩

theorem equipment_resent {sender : Mmsi} : Gives (Offsets.equipment b sender) fun s =>
    ∃ xs, Writes (equipment sender) s xs s :=
  .bind fun _ hship => .bind fun _ hvendor => .bind fun _ hmodel => .bind fun _ hserial =>
  .bind fun _ hcallsign => .bind fun _ hreference => .pure <| by
    obtain ⟨xs, hxs⟩ := reference_resent _ hreference
    exact ⟨_, (word8_writes (by decide) hship).on.bind <|
      (text_writes (Bits.isFieldText_of_textAt hvendor)).on.bind <|
      (word8_writes (by decide) hmodel).on.bind <|
      (word32_writes (by decide) hserial).on.bind <|
      (text_writes (Bits.isFieldText_of_textAt hcallsign)).on.bind <| hxs.on.bind <|
      filling_writes.bind (.pure _)⟩

/-- A part behind its number. -/
theorem staticDataPart_writes {sender : Mmsi} {τ : Type} {part : StaticDataPart}
    {l : Layout τ StaticDataPart} {s : τ} {xs : List Bool}
    (hnumber : b.uintAt 38 2 = .ok part.number) (hpart : Writes l s xs part)
    (hw : ∀ w, (staticDataPart sender).write part w =
      ((uint "part_number" 2).write part.number w).bind fun x => l.write s x.2) :
    Writes (staticDataPart sender) part (b.window 38 2 ++ xs) part := by
  intro w
  rw [hw, uint_writes hnumber]
  show l.write s _ = _
  rw [hpart, Bits.append, Bits.append, ← List.foldl_append]
  rfl

theorem staticDataPart_resent {sender : Mmsi} : Gives (Offsets.staticDataPart b sender) fun s =>
    ∃ xs, Writes (staticDataPart sender) s xs s := by
  refine .bind fun number hnumber => ?_
  split
  · refine .bind fun name hname => .pure ?_
    have htext : Writes (text 20) name _ name := text_writes (Bits.isFieldText_of_textAt hname)
    exact ⟨_, staticDataPart_writes hnumber htext.mapped fun _ => rfl⟩
  · refine .bind fun equip hequip => .pure ?_
    obtain ⟨xs, hxs⟩ := equipment_resent equip hequip
    exact ⟨_, staticDataPart_writes hnumber hxs.mapped fun _ => rfl⟩
  · intro part h
    cases h

theorem staticDataReport_resent :
    Gives (Offsets.staticDataReport b) fun m => ∃ xs, Writes staticDataReport m xs m :=
  .bind fun _ hheader => .bind fun _ hpart => .pure <| by
    obtain ⟨xs, hxs⟩ := staticDataPart_resent _ hpart
    exact ⟨_, (header_resent _ hheader).on.bind <| hxs.on.bind (.pure _)⟩

end Layout

end Transponder

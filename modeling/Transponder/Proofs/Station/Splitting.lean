import Mathlib.Algebra.Order.Floor.Div
import Transponder.Proofs.Station.Sending

/-!
# Messages in several sentences lose nothing

The pieces of a payload are all as long as the settings allow, but for the last one, and there are as
many of them as it takes (`length_pieces`, `length_of_mem_dropLast_pieces`). `Splits` says how they
are handed out to the sentences of a message. A message is sent if the settings are in order, it can
be encoded, and its payload takes no more than nine sentences.
-/

namespace Transponder

/-! ## Pieces -/

section Pieces

variable {α : Type} {n : Nat} {xs p : List α}

/-- There are as many pieces as it takes. -/
theorem length_pieces (hn : 0 < n) (hx : xs ≠ []) : (pieces n xs).length = xs.length ⌈/⌉ n := by
  rw [Nat.ceilDiv_eq_add_pred_div]
  fun_induction pieces n xs with
  | case1 xs h =>
    have hpos := List.length_pos_iff.mpr hx
    have hone : (xs.length + n - 1) / n = 1 := Nat.div_eq_of_lt_le (by omega) (by omega)
    rw [List.length_singleton, hone]
  | case2 xs h ih =>
    have hlt : n < xs.length := by omega
    have hrest : xs.drop n ≠ [] := by
      rw [Ne, List.drop_eq_nil_iff]
      omega
    -- The first piece takes `n` elements away, and the quotient is one less for the rest.
    rw [List.length_cons, ih hrest, List.length_drop, ← Nat.add_div_right _ hn]
    congr 1
    omega

/-- All pieces but the last one are of full length. -/
theorem length_of_mem_dropLast_pieces (h : p ∈ (pieces n xs).dropLast) : p.length = n := by
  fun_induction pieces n xs with
  | case1 xs => exact absurd h List.not_mem_nil
  | case2 xs hlong ih =>
    rw [List.dropLast_cons_of_ne_nil (pieces_ne_nil _ _)] at h
    rcases List.mem_cons.mp h with rfl | h
    · rw [List.length_take]
      omega
    · exact ih h

theorem ne_nil_of_mem_pieces (hx : xs ≠ []) (h : p ∈ pieces n xs) : p ≠ [] := by
  fun_induction pieces n xs with
  | case1 xs => rwa [List.mem_singleton.mp h]
  | case2 xs hlong ih =>
    rcases List.mem_cons.mp h with rfl | h
    · rw [Ne, List.take_eq_nil_iff]
      tauto
    · refine ih ?_ h
      rw [Ne, List.drop_eq_nil_iff]
      omega

end Pieces

namespace Transmitter

variable {settings : TransmitterSettings} {armored : String} {t : Transmitter} {m : Message}
  {bits : Bits} {ss : List Sentence} {id : String} {parts : List String} {fillBits : Nat}

/-- How many sentences a payload takes. -/
def sentenceCount (settings : TransmitterSettings) (armored : String) : Nat :=
  if settings.enableFragmentation = true ∧ settings.maxFragmentLength < armored.length then
    armored.length ⌈/⌉ settings.maxFragmentLength
  else 1

theorem cut_of_disabled (h : settings.enableFragmentation = false) :
    cut settings armored = [armored] := by
  rw [cut, h]
  rfl

theorem cut_of_enabled (h : settings.enableFragmentation = true) :
    cut settings armored =
      (pieces settings.maxFragmentLength armored.toList).map String.ofList := by
  rw [cut, h]
  rfl

theorem toList_ne_nil (h : armored ≠ "") : armored.toList ≠ [] := fun hnil =>
  h (String.toList_eq_nil_iff.mp hnil)

theorem length_cut (hmax : 0 < settings.maxFragmentLength) (ha : armored ≠ "") :
    (cut settings armored).length = sentenceCount settings armored := by
  rw [sentenceCount]
  cases h : settings.enableFragmentation with
  | false => rw [cut_of_disabled h, if_neg fun hall => Bool.false_ne_true hall.1]; rfl
  | true =>
    rw [cut_of_enabled h, List.length_map]
    by_cases hlong : settings.maxFragmentLength < armored.length
    · rw [if_pos ⟨rfl, hlong⟩, length_pieces hmax (toList_ne_nil ha), String.length_toList]
    · rw [if_neg fun hall => hlong hall.2, pieces_of_le (by rw [String.length_toList]; omega)]
      rfl

theorem length_cut_le_iff (hmax : 0 < settings.maxFragmentLength) (ha : armored ≠ "") :
    (cut settings armored).length ≤ maxFragments ↔ settings.enableFragmentation = false ∨
      armored.length ⌈/⌉ settings.maxFragmentLength ≤ 9 := by
  cases h : settings.enableFragmentation with
  | false =>
    rw [cut_of_disabled h, List.length_singleton]
    exact iff_of_true (by decide) (.inl rfl)
  | true =>
    rw [cut_of_enabled h, List.length_map, length_pieces hmax (toList_ne_nil ha),
      String.length_toList]
    exact ⟨.inr, fun hor => hor.resolve_left Bool.true_eq_false.mp⟩

theorem length_of_mem_dropLast_cut {part : String} (h : part ∈ (cut settings armored).dropLast) :
    part.length = settings.maxFragmentLength := by
  cases he : settings.enableFragmentation with
  | false =>
    rw [cut_of_disabled he] at h
    exact absurd h List.not_mem_nil
  | true =>
    rw [cut_of_enabled he, ← List.map_dropLast] at h
    obtain ⟨p, hp, rfl⟩ := List.mem_map.mp h
    rw [String.length_ofList]
    exact length_of_mem_dropLast_pieces hp

theorem ne_empty_of_mem_cut {part : String} (ha : armored ≠ "")
    (h : part ∈ cut settings armored) : part ≠ "" := by
  cases he : settings.enableFragmentation with
  | false =>
    rw [cut_of_disabled he] at h
    rwa [List.mem_singleton.mp h]
  | true =>
    rw [cut_of_enabled he] at h
    obtain ⟨p, hp, rfl⟩ := List.mem_map.mp h
    intro hempty
    exact ne_nil_of_mem_pieces (toList_ne_nil ha) hp (String.ofList_eq_empty_iff.mp hempty)

/-! ## Which messages are sent -/

theorem maxFragmentLength_pos (h : settings.check = .ok ()) : 0 < settings.maxFragmentLength := by
  refine Nat.pos_of_ne_zero fun hzero => ?_
  obtain ⟨hchannel, htalker⟩ := check_eq_ok h
  rw [TransmitterSettings.check, hchannel, htalker, hzero] at h
  cases hid : settings.sequenceId with
  | none => rw [hid] at h; cases h
  | some id =>
    rw [hid] at h
    by_cases hlarge : maxSequenceId < id.toNat
    · simp only [if_pos hlarge] at h
      cases h
    · simp only [if_neg hlarge] at h
      cases h

/-- A message has bits, hence characters to send. -/
theorem armored_ne_empty (h : m.encode = .ok bits) : bits.armored ≠ "" := by
  obtain ⟨w, m', w', hw, hbody, rfl⟩ := Message.encode_eq_ok h
  obtain ⟨-, htype⟩ := (Layout.uint_carries (p := 0)) .empty _ w rfl hw
  have hsix : w.bits.length = 6 := htype.length
  obtain ⟨-, hgrows, -⟩ := Message.keepsBody m w m' w' hsix hbody
  have hle : w.bits.length ≤ w'.bits.length := Bits.length_le_of_isPrefix hgrows
  intro hempty
  have hzero : (w'.bits.length + 5) / 6 = 0 := by
    rw [← Bits.length_armored, hempty]
    rfl
  omega

theorem encode_of_length_le (hc : t.settings.check = .ok ()) (hm : m.encode = .ok bits)
    (hle : (cut t.settings bits.armored).length ≤ maxFragments) :
    ∃ ss, (t.encode m).2 = .ok ss := by
  have hpayloads : payloads t.settings bits.armored = .ok (cut t.settings bits.armored) := by
    rw [payloads, chunks_armored]
    exact if_neg (Nat.not_lt.mpr hle)
  rw [encode, hc, hm]
  simp only [bind, Except.bind, hpayloads, pure, Except.pure]
  split <;> exact ⟨_, rfl⟩

/-! ## How they are split -/

/-- `ss` bring the armored text of `bits` in pieces, and nothing else. -/
structure Splits (settings : TransmitterSettings) (bits : Bits) (ss : List Sentence) : Prop where
  count : ss.length = sentenceCount settings bits.armored
  numbers : ∀ i, (h : i < ss.length) →
    ss[i].fragmentNumber.toNat = i + 1 ∧ ss[i].fragmentCount.toNat = ss.length
  payload : String.join (ss.map (·.payload)) = bits.armored
  full : ∀ s ∈ ss.dropLast, s.payload.length = settings.maxFragmentLength
  nonempty : ∀ s ∈ ss, s.payload ≠ ""
  /-- Only the last sentence has bits that fill up its last character. -/
  fillBits : ∀ i, (h : i < ss.length) →
    ss[i].fillBits.toNat = if i + 1 = ss.length then (6 - bits.length % 6) % 6 else 0
  sequenceId : ∃ id, (∀ s ∈ ss, s.sequenceId = id) ∧ (id = "" ↔ ss.length = 1)
  channel : ∀ s ∈ ss, s.channel = some settings.channel
  address : ∀ s ∈ ss, s.address =
    ⟨Text.upper settings.talker, if settings.ownVessel then .vdo else .vdm⟩

theorem label_eq_empty_iff {count : Nat} (h : 0 < count) : (t.label count).1 = "" ↔ count = 1 := by
  rw [label]
  split
  · exact iff_of_true rfl (by omega)
  · refine iff_of_false (fun hempty => ?_) (by omega)
    rw [Nat.toString_eq_repr, ← String.toList_eq_nil_iff, Nat.toList_repr] at hempty
    exact Nat.toDigits_ne_nil hempty

theorem fillBits_getElem_sentences {i : Nat} (hfill : fillBits ≤ 5)
    (hi : i < (sentences settings id fillBits parts).length) :
    (sentences settings id fillBits parts)[i].fillBits.toNat =
      if i + 1 = parts.length then fillBits else 0 := by
  simp only [sentences, List.getElem_mapIdx]
  split
  · exact UInt8.toNat_ofNat_of_lt' (show fillBits < 256 by omega)
  · rfl

/-- The sentences that a message is sent in bring its bits. -/
theorem Spread.splits (h : Spread settings id m ss) (hid : id = "" ↔ ss.length = 1) :
    ∃ bits, m.encode = .ok bits ∧ Splits settings bits ss := by
  obtain ⟨bits, hm, hle, hss⟩ := h.made
  have ha := armored_ne_empty hm
  have hpayloads : ss.map (·.payload) = cut settings bits.armored := by
    rw [hss, map_payload_sentences]
  have hlength : ss.length = (cut settings bits.armored).length := by
    rw [hss, length_sentences]
  refine ⟨bits, hm, ?_⟩
  exact {
    count := by rw [hlength, length_cut (maxFragmentLength_pos h.checked) ha]
    numbers := fun i hi => ⟨h.fragmentNumber hi, h.fragmentCount (List.getElem_mem hi)⟩
    payload := by rw [hpayloads, join_cut]
    full := fun s hs => by
      have hmem : s.payload ∈ (cut settings bits.armored).dropLast := by
        rw [← hpayloads, ← List.map_dropLast]
        exact List.mem_map_of_mem hs
      exact length_of_mem_dropLast_cut hmem
    nonempty := fun s hs => by
      have hmem : s.payload ∈ cut settings bits.armored := by
        rw [← hpayloads]
        exact List.mem_map_of_mem hs
      exact ne_empty_of_mem_cut ha hmem
    fillBits := fun i hi => by
      rw [hlength]
      subst hss
      exact fillBits_getElem_sentences (Bits.fillBits_le bits.length) hi
    sequenceId := ⟨id, fun s hs => h.sequenceId hs, hid⟩
    channel := fun s hs => by
      obtain ⟨i, payload, fillBits, -, -, -, rfl⟩ := h.exists_of_mem hs
      rfl
    address := fun s hs => by
      obtain ⟨i, payload, fillBits, -, -, -, rfl⟩ := h.exists_of_mem hs
      exact address_eq (check_eq_ok h.checked).2 }

/-- Which messages are sent, and how their payloads are spread over sentences. -/
theorem encode_splits (t : Transmitter) (m : Message) :
    ((∃ ss, (t.encode m).2 = .ok ss) ↔ t.settings.check = .ok () ∧ ∃ bits, m.encode = .ok bits ∧
      (t.settings.enableFragmentation = false ∨
        bits.armored.length ⌈/⌉ t.settings.maxFragmentLength ≤ 9)) ∧
    ∀ ss, (t.encode m).2 = .ok ss → ∃ bits, m.encode = .ok bits ∧ Splits t.settings bits ss := by
  have hspread : ∀ ss, (t.encode m).2 = .ok ss → Spread t.settings (t.label ss.length).1 m ss :=
    fun ss hss => (encode_eq_ok (Prod.ext rfl hss : t.encode m = ((t.encode m).1, .ok ss))).1
  refine ⟨⟨fun ⟨ss, hss⟩ => ?_, fun ⟨hc, bits, hm, hfits⟩ => ?_⟩, fun ss hss => ?_⟩
  · have h := hspread ss hss
    obtain ⟨bits, hm, hle, -⟩ := h.made
    exact ⟨h.checked, bits, hm,
      (length_cut_le_iff (maxFragmentLength_pos h.checked) (armored_ne_empty hm)).mp hle⟩
  · exact encode_of_length_le hc hm
      ((length_cut_le_iff (maxFragmentLength_pos hc) (armored_ne_empty hm)).mpr hfits)
  · have h := hspread ss hss
    exact h.splits (label_eq_empty_iff (List.length_pos_iff.mpr h.ne_nil))

/-- A question of twelve characters. -/
def inquiry : Message :=
  .utcInquiry { header := { mmsi := 230629000 }, destination := 2655651 }

/-- It takes two sentences of six characters, and more than nine sentences of one. -/
theorem encode_splits_inquiry :
    (∃ ss, (encode { settings := { maxFragmentLength := 6 } } inquiry).2 = .ok ss ∧
      ss.length = 2 ∧ ∀ s ∈ ss.dropLast, s.payload.length = 6) ∧
    ¬ ∃ ss, (encode { settings := { maxFragmentLength := 1 } } inquiry).2 = .ok ss := by
  have hencode : inquiry.encode.toOption.map (fun bits => bits.armored.length) = some 12 := by
    decide +kernel
  cases h : inquiry.encode with
  | error e =>
    rw [h] at hencode
    cases hencode
  | ok bits =>
    rw [h] at hencode
    have hlength : bits.armored.length = 12 := Option.some.inj hencode
    obtain ⟨hsix, hsplits⟩ := encode_splits { settings := { maxFragmentLength := 6 } } inquiry
    obtain ⟨hone, -⟩ := encode_splits { settings := { maxFragmentLength := 1 } } inquiry
    rw [h] at hsix hsplits hone
    constructor
    · obtain ⟨ss, hss⟩ := hsix.mpr ⟨rfl, bits, rfl, .inr (by rw [hlength]; decide)⟩
      obtain ⟨bits', hbits, hsplit⟩ := hsplits ss hss
      obtain rfl : bits = bits' := Except.ok.inj hbits
      refine ⟨ss, hss, ?_, hsplit.full⟩
      rw [hsplit.count, sentenceCount, hlength]
      decide
    · rw [hone]
      rintro ⟨-, bits', hbits, hfits⟩
      obtain rfl : bits = bits' := Except.ok.inj hbits
      rw [hlength] at hfits
      revert hfits
      decide

end Transmitter

end Transponder

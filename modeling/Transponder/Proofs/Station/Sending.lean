import Transponder.Proofs.Bits.Armor
import Transponder.Proofs.Message.RoundTrip
import Transponder.Proofs.Sentence.Fragment
import Transponder.Proofs.Sentence.RoundTrip
import Transponder.Proofs.Text.Lines
import Transponder.Station.Receiver
import Transponder.Station.Transmitter

/-!
# What is sent

The sentences of a message are pieces of its armored payload. A payload is cut by its bytes; it is
ASCII, so it is also cut by its characters, and no piece is lost (`chunks_armored`). `Spread` says
how the sentences are made, and what follows from it is all that a receiver relies on: each of them
can be read back, they are numbered from 1, and put together in this order they are the payload of
the message.
-/

namespace Transponder

/-- The piece of a payload that a sentence brings. -/
def Sentence.fragment (s : Sentence) : Fragment :=
  ⟨s.payload, s.fillBits.toNat⟩

/-- The piece of a sentence with its number. -/
def Sentence.numberedFragment (s : Sentence) : Nat × Fragment :=
  (s.fragmentNumber.toNat, s.fragment)

/-! ## Pieces -/

theorem flatten_pieces {α : Type} (n : Nat) (xs : List α) : (pieces n xs).flatten = xs := by
  fun_induction pieces n xs with
  | case1 xs h => simp
  | case2 xs h ih => rw [List.flatten_cons, ih, List.take_append_drop]

theorem pieces_ne_nil {α : Type} (n : Nat) (xs : List α) : pieces n xs ≠ [] := by
  unfold pieces
  split <;> exact List.cons_ne_nil _ _

theorem pieces_of_le {α : Type} {n : Nat} {xs : List α} (h : xs.length ≤ n) :
    pieces n xs = [xs] := by
  rw [pieces, if_pos (.inr h)]

theorem pieces_map {α β : Type} (f : α → β) (n : Nat) (xs : List α) :
    pieces n (xs.map f) = (pieces n xs).map (List.map f) := by
  fun_induction pieces n xs with
  | case1 xs h => rw [pieces, if_pos (by rwa [List.length_map])]; rfl
  | case2 xs h ih =>
    rw [pieces, if_neg (by rwa [List.length_map]), List.map_cons, ← ih, List.map_take,
      List.map_drop]

theorem mem_of_mem_pieces {α : Type} {n : Nat} {xs p : List α} {x : α} (hp : p ∈ pieces n xs)
    (hx : x ∈ p) : x ∈ xs := by
  rw [← flatten_pieces n xs]
  exact List.mem_flatten_of_mem hp hx

/-- The bytes of an ASCII text are cut where its characters are, and every piece is a text. -/
theorem filterMap_pieces_utf8 {cs : List Char} (h : ∀ c ∈ cs, Text.isAscii c = true) (n : Nat) :
    (pieces n (Text.utf8 cs)).filterMap Text.ofUtf8? = (pieces n cs).map String.ofList := by
  rw [Text.utf8_of_isAscii h, pieces_map, List.filterMap_map]
  refine (List.filterMap_congr fun p hp => ?_).trans (congrFun List.filterMap_eq_map _)
  have hascii : ∀ c ∈ p, Text.isAscii c = true := fun c hc => h c (mem_of_mem_pieces hp hc)
  show Text.ofUtf8? (p.map _) = _
  rw [← Text.utf8_of_isAscii hascii, Text.ofUtf8?_utf8]
  rfl

namespace Transmitter

variable {settings : TransmitterSettings} {armored : String} {parts : List String}

/-- The pieces that a payload is cut into. -/
def cut (settings : TransmitterSettings) (armored : String) : List String :=
  if settings.enableFragmentation then
    (pieces settings.maxFragmentLength armored.toList).map String.ofList
  else [armored]

theorem flatMap_cut : (cut settings armored).flatMap String.toList = armored.toList := by
  unfold cut
  split
  · rw [List.flatMap_map]
    simp only [String.toList_ofList]
    rw [List.flatMap_id', flatten_pieces]
  · exact List.append_nil _

theorem cut_ne_nil : cut settings armored ≠ [] := by
  unfold cut
  split
  · simpa using pieces_ne_nil _ _
  · exact List.cons_ne_nil _ _

theorem length_sentences {id : String} {fillBits : Nat} :
    (sentences settings id fillBits parts).length = parts.length :=
  List.length_mapIdx

theorem map_payload_sentences {id : String} {fillBits : Nat} :
    (sentences settings id fillBits parts).map (·.payload) = parts := by
  refine List.ext_getElem (by rw [List.length_map, length_sentences]) fun i _ _ => ?_
  simp only [List.getElem_map, sentences, List.getElem_mapIdx]

theorem join_cut : String.join (cut settings armored) = armored := by
  rw [← String.toList_inj, String.toList_join, flatMap_cut]

theorem settings_takeSequenceId {t : Transmitter} : t.takeSequenceId.2.settings = t.settings := by
  unfold takeSequenceId
  split <;> rfl

/-- The pieces of an armored text are those of its characters, and none is left out. -/
theorem chunks_armored (bits : Bits) :
    chunks settings bits.armored = cut settings bits.armored := by
  have hascii : ∀ c ∈ bits.armored.toList, Text.isAscii c = true := fun _ =>
    Bits.isAscii_of_mem_armored
  rw [chunks, filterMap_pieces_utf8 hascii, cut]
  by_cases hlong : settings.maxFragmentLength < (Text.utf8 bits.armored.toList).length
  · simp only [hlong, and_true]
  · have hwhole : pieces settings.maxFragmentLength bits.armored.toList = [bits.armored.toList] := by
      rw [Text.utf8_of_isAscii hascii, List.length_map] at hlong
      exact pieces_of_le (Nat.not_lt.mp hlong)
    simp [hlong, hwhole]

theorem payloads_eq_ok {bits : Bits} (h : payloads settings bits.armored = .ok parts) :
    parts = cut settings bits.armored ∧ parts.length ≤ maxFragments := by
  rw [payloads, chunks_armored] at h
  split at h
  case isTrue => cases h
  case isFalse hle =>
    cases h
    exact ⟨rfl, Nat.not_lt.mp hle⟩

/-- The names in settings that were checked. -/
theorem check_eq_ok (h : settings.check = .ok ()) :
    isChannelName settings.channel = true ∧ isTalkerName settings.talker = true := by
  unfold TransmitterSettings.check at h
  cases hc : isChannelName settings.channel with
  | false => rw [hc] at h; cases h
  | true =>
    cases ht : isTalkerName settings.talker with
    | false => rw [hc, ht] at h; cases h
    | true => exact ⟨rfl, rfl⟩

/-- A message as it is received. -/
def receipt (settings : TransmitterSettings) (m : Message) : Received where
  message := m.normalised
  ownVessel := settings.ownVessel
  channel := some settings.channel
  receivedAt := none

/-- The sequence id of a message in some number of sentences, and the transmitter after it. -/
def label (t : Transmitter) (count : Nat) : String × Transmitter :=
  if count ≤ 1 then ("", t) else (toString t.takeSequenceId.1, t.takeSequenceId.2)

theorem isField_label {t : Transmitter} (count : Nat) :
    Sentence.IsField (t.label count).1.toList := by
  unfold label
  split
  · exact ⟨List.not_mem_nil, List.not_mem_nil⟩
  · rw [Nat.toString_eq_repr, Nat.toList_repr]
    exact Sentence.isField_toDigits _

/-- `ss` are the sentences with a sequence id that a message is sent in. -/
structure Spread (settings : TransmitterSettings) (id : String) (m : Message) (ss : List Sentence) :
    Prop where
  checked : settings.check = .ok ()
  named : Sentence.IsField id.toList
  made : ∃ bits, m.encode = .ok bits ∧ (cut settings bits.armored).length ≤ maxFragments ∧
    ss = sentences settings id (Bits.fillBits bits.length) (cut settings bits.armored)

theorem encode_eq_ok {t t' : Transmitter} {m : Message} {ss : List Sentence}
    (h : t.encode m = (t', .ok ss)) :
    Spread t.settings (t.label ss.length).1 m ss ∧ t' = (t.label ss.length).2 := by
  unfold encode at h
  cases hc : t.settings.check with
  | error e => rw [hc] at h; cases h
  | ok u =>
    cases hm : m.encode with
    | error e => rw [hc, hm] at h; cases h
    | ok bits =>
      cases hp : payloads t.settings bits.armored with
      | error e => rw [hc, hm] at h; simp only [bind, Except.bind, hp] at h; cases h
      | ok parts =>
        obtain ⟨rfl, hle⟩ := payloads_eq_ok hp
        rw [hc, hm] at h
        simp only [bind, Except.bind, hp, pure, Except.pure] at h
        have hsent : t' = (t.label (cut t.settings bits.armored).length).2 ∧
            ss = sentences t.settings (t.label (cut t.settings bits.armored).length).1
              (Bits.fillBits bits.length) (cut t.settings bits.armored) := by
          unfold label
          split at h
          case isTrue hone =>
            cases h
            rw [if_pos hone]
            exact ⟨rfl, rfl⟩
          case isFalse hmany =>
            cases h
            rw [if_neg hmany, settings_takeSequenceId]
            exact ⟨rfl, rfl⟩
        obtain ⟨rfl, rfl⟩ := hsent
        rw [length_sentences]
        exact ⟨⟨hc, isField_label _, bits, hm, hle, rfl⟩, rfl⟩

/-! ## What a receiver relies on -/

theorem isAlphanum_of_isTalkerName {name : String} (h : isTalkerName name = true) :
    ∀ c ∈ name.toList, c.isAlphanum = true := by
  intro c hc
  rw [Char.isAlphanum, List.all_eq_true.mp (Bool.and_eq_true_iff.mp h).2 c hc]
  rfl

theorem length_of_isTalkerName {name : String} (h : isTalkerName name = true) :
    name.toList.length = 2 :=
  of_decide_eq_true (Bool.and_eq_true_iff.mp h).1

/-- A checked talker is the talker of the address, in upper case. -/
theorem address_eq (h : isTalkerName settings.talker = true) : address settings =
    ⟨Text.upper settings.talker, if settings.ownVessel then .vdo else .vdm⟩ := by
  have hascii : ∀ c ∈ settings.talker.toList, Text.isAscii c = true := fun c hc =>
    Text.isAscii_of_isAlphanum (isAlphanum_of_isTalkerName h c hc)
  have htake : settings.talker.toList.take 2 = settings.talker.toList :=
    List.take_of_length_le (Nat.le_of_eq (length_of_isTalkerName h))
  rw [address, Address.ofTalker_of_isAscii _ htake (length_of_isTalkerName h) hascii, Text.upper]

theorem talker_address (h : isTalkerName settings.talker = true) :
    (address settings).talker.toList = settings.talker.toList.map Char.toUpper := by
  rw [address_eq h, Text.upper, String.toList_ofList]

/-- The characters of the talker of the address. -/
theorem talker_address_upper (h : isTalkerName settings.talker = true) :
    ∀ c ∈ (address settings).talker.toList, c.isAlphanum = true ∧ c.toUpper = c := by
  intro c hc
  rw [talker_address h] at hc
  obtain ⟨d, hd, rfl⟩ := List.mem_map.mp hc
  exact Text.toUpper_of_isAlphanum (isAlphanum_of_isTalkerName h d hd)

theorem isOwnVessel_address : (address settings).isOwnVessel = settings.ownVessel := by
  have hformatter : (address settings).formatter = if settings.ownVessel then .vdo else .vdm := by
    rw [address, Address.ofTalker]
    split <;> rfl
  rw [Address.isOwnVessel, hformatter]
  cases settings.ownVessel <;> rfl

theorem isField_of_armored {b : Bits} {cs : List Char} (h : ∀ c ∈ cs, c ∈ b.armored.toList) :
    Sentence.IsField cs where
  comma hc := absurd (Bits.armored_range (h _ hc)) (by decide)
  star hc := absurd (Bits.armored_range (h _ hc)) (by decide)

theorem mem_armored_of_mem_cut {part : String} {c : Char} (hp : part ∈ cut settings armored)
    (hc : c ∈ part.toList) : c ∈ armored.toList := by
  have hflat : (cut settings armored).flatMap String.toList = armored.toList := flatMap_cut
  rw [← hflat]
  exact List.mem_flatMap.mpr ⟨part, hp, hc⟩

namespace Spread

variable {id : String} {m : Message} {ss : List Sentence} {s : Sentence}

theorem length_le (h : Spread settings id m ss) : ss.length ≤ maxFragments := by
  obtain ⟨bits, -, hle, rfl⟩ := h.made
  rwa [length_sentences]

theorem ne_nil (h : Spread settings id m ss) : ss ≠ [] := by
  obtain ⟨bits, -, -, rfl⟩ := h.made
  rw [sentences, List.mapIdx_ne_nil_iff]
  exact cut_ne_nil

/-- The fields of the sentences. -/
theorem exists_of_mem (h : Spread settings id m ss) (hs : s ∈ ss) :
    ∃ i payload fillBits, i < ss.length ∧ Sentence.IsField payload.toList ∧
      fillBits ≤ Sentence.maxFillBits ∧ s =
        { address := address settings, fragmentCount := UInt8.ofNat ss.length,
          fragmentNumber := UInt8.ofNat (i + 1), sequenceId := id,
          channel := some settings.channel, payload, fillBits } := by
  obtain ⟨bits, -, -, rfl⟩ := h.made
  obtain ⟨i, hi, rfl⟩ := List.mem_mapIdx.mp hs
  refine ⟨i, (cut settings bits.armored)[i], _, by rwa [length_sentences], ?_, ?_,
    by rw [length_sentences]⟩
  · exact isField_of_armored fun c => mem_armored_of_mem_cut (List.getElem_mem hi)
  · split
    · have hle := Bits.fillBits_le bits.length
      rw [UInt8.le_iff_toNat_le, UInt8.toNat_ofNat_of_lt' (show Bits.fillBits _ < 256 by omega)]
      exact hle
    · exact UInt8.le_iff_toNat_le.mpr (Nat.zero_le _)

theorem fragmentCount (h : Spread settings id m ss) (hs : s ∈ ss) :
    s.fragmentCount.toNat = ss.length := by
  have hle : ss.length ≤ 9 := h.length_le
  obtain ⟨i, payload, fillBits, -, -, -, rfl⟩ := h.exists_of_mem hs
  exact UInt8.toNat_ofNat_of_lt' (show ss.length < 256 by omega)

theorem sequenceId (h : Spread settings id m ss) (hs : s ∈ ss) : s.sequenceId = id := by
  obtain ⟨i, payload, fillBits, -, -, -, rfl⟩ := h.exists_of_mem hs
  rfl

theorem keyOf_eq (h : Spread settings id m ss) (hs : s ∈ ss) :
    Receiver.keyOf s = ⟨id, some settings.channel, ss.length⟩ := by
  have hcount := h.fragmentCount hs
  obtain ⟨i, payload, fillBits, -, -, -, rfl⟩ := h.exists_of_mem hs
  exact congrArg (FragmentKey.mk id (some settings.channel)) hcount

theorem wellFormed (h : Spread settings id m ss) (hs : s ∈ ss) : s.WellFormed := by
  have hle : ss.length ≤ 9 := h.length_le
  obtain ⟨hchannel, htalker⟩ := check_eq_ok h.checked
  have hupper := talker_address_upper htalker
  obtain ⟨i, payload, fillBits, hi, hpayload, hfill, rfl⟩ := h.exists_of_mem hs
  have hnumber : (UInt8.ofNat (i + 1)).toNat = i + 1 :=
    UInt8.toNat_ofNat_of_lt' (show i + 1 < 256 by omega)
  have hcount : (UInt8.ofNat ss.length).toNat = ss.length :=
    UInt8.toNat_ofNat_of_lt' (show ss.length < 256 by omega)
  exact {
    talker_length := by
      rw [talker_address htalker, List.length_map]
      exact length_of_isTalkerName htalker
    talker_ascii := fun c hc => Text.isAscii_of_isAlphanum (hupper c hc).1
    talker_upper := fun c hc => (hupper c hc).2
    talker := Sentence.isField_of_isAlphanum fun c hc => (hupper c hc).1
    number_pos := UInt8.lt_iff_toNat_lt.mpr (by
      rw [hnumber]
      exact Nat.succ_pos i)
    number_le := UInt8.le_iff_toNat_le.mpr (by rwa [hnumber, hcount])
    sequenceId := h.named
    channel_graphic := fun c hc => by
      cases hc
      exact Text.isGraphic_of_isAlphanum hchannel
    channel := Sentence.isField_of_isAlphanum fun c hc => by
      rw [List.mem_singleton.mp hc]
      exact hchannel
    payload := hpayload
    fillBits_le := hfill
    tagBlock := fun _ ht => by cases ht }

theorem fragmentNumber (h : Spread settings id m ss) {i : Nat} (hi : i < ss.length) :
    ss[i].fragmentNumber.toNat = i + 1 := by
  have hle : ss.length ≤ 9 := h.length_le
  obtain ⟨bits, -, -, rfl⟩ := h.made
  simp only [sentences, List.getElem_mapIdx]
  exact UInt8.toNat_ofNat_of_lt' (show i + 1 < 256 by omega)

/-- The sentences are numbered from 1. -/
theorem map_numberedFragment (h : Spread settings id m ss) :
    ss.map Sentence.numberedFragment = numbered (ss.map Sentence.fragment) := by
  refine List.ext_getElem ?_ fun i hi _ => ?_
  · rw [length_numbered, List.length_map, List.length_map]
  · rw [List.length_map] at hi
    rw [getElem_numbered (by rwa [List.length_map]), List.getElem_map, List.getElem_map,
      Sentence.numberedFragment, h.fragmentNumber hi]

/-- Together the sentences bring the payload of the message, and the last one tells its filling. -/
theorem join_fragments (h : Spread settings id m ss) :
    ∃ bits, m.encode = .ok bits ∧ FragmentTable.join (ss.map Sentence.fragment) =
      ⟨bits.armored, Bits.fillBits bits.length⟩ := by
  obtain ⟨bits, hm, -, hss⟩ := h.made
  refine ⟨bits, hm, ?_⟩
  have hpayloads : (ss.map Sentence.fragment).map Fragment.payload = cut settings bits.armored := by
    rw [List.map_map, hss]
    exact map_payload_sentences
  have hlast : ((ss.map Sentence.fragment).getLast?.map Fragment.fillBits).getD 0 =
      Bits.fillBits bits.length := by
    obtain ⟨front, last, hcut⟩ : ∃ front last, cut settings bits.armored = front ++ [last] :=
      ⟨_, _, (List.dropLast_concat_getLast cut_ne_nil).symm⟩
    have hfill := Bits.fillBits_le bits.length
    rw [hss, hcut, sentences, List.mapIdx_concat, List.map_append, List.map_singleton,
      List.getLast?_append]
    show (UInt8.toNat (if front.length + 1 = (front ++ [last]).length then _ else 0)) = _
    rw [if_pos (by simp)]
    exact UInt8.toNat_ofNat_of_lt' (show Bits.fillBits _ < 256 by omega)
  rw [FragmentTable.join, hpayloads, hlast, join_cut]

/-- The message that was encoded is decoded again. -/
theorem encode_bind_decode (h : Spread settings id m ss) :
    m.encode.bind Message.decode = .ok m.normalised := by
  obtain ⟨bits, hm, -⟩ := h.made
  rw [hm]
  refine Message.decode_of_isPrefix hm (List.prefix_refl _) ?_
  rw [Nat.sub_self]
  exact m.slack_zero

/-- Together the sentences bring the message. -/
theorem ofPayload_join (h : Spread settings id m ss) :
    Message.ofPayload (FragmentTable.join (ss.map Sentence.fragment)).payload
      (FragmentTable.join (ss.map Sentence.fragment)).fillBits = .ok m.normalised := by
  obtain ⟨bits, hm, hjoin⟩ := h.join_fragments
  have hdecode := h.encode_bind_decode
  rw [hm] at hdecode
  rw [hjoin, Message.ofPayload, Bits.truncate_ofArmor_armored]
  exact hdecode

theorem open?_join (h : Spread settings id m ss) (hs : s ∈ ss) :
    Receiver.open? s (FragmentTable.join (ss.map Sentence.fragment)) =
      .ok (receipt settings m) := by
  rw [Receiver.open?, h.ofPayload_join]
  obtain ⟨i, payload, fillBits, -, -, -, rfl⟩ := h.exists_of_mem hs
  show Except.ok (Received.mk m.normalised (address settings).isOwnVessel _ none) = _
  rw [isOwnVessel_address]
  rfl

end Spread

end Transmitter

end Transponder

import Transponder.Proofs.Sentence.Framing
import Transponder.Proofs.Sentence.History
import Transponder.Proofs.Station.Feed

/-!
# The sentences that a message is joined from

`Heard` is a sentence that was accepted. `gathered` reads off what was heard, without a table, the
sentences of one message that are still kept: a sentence in several parts gives up what is too old
and adds itself, and a message that has all its parts is forgotten. The table of a receiver is the
summary of them after any feed (`recalls_decodeAll`), so `parts` are the very sentences whose
payloads a message is joined from. They have the sequence id, the channel and the count in common;
whose message it is says the sentence that completes it (`ownVessel_of_joined`). The formatter tells
no messages apart: a sentence about the own vessel can complete what a sentence about another one
has begun (`ownVessel_of_two_formatters`).
-/

namespace Transponder

open FragmentTable Addition

/-- A sentence that was accepted, and when it came. -/
structure Heard where
  now : Moment
  sentence : Sentence

namespace Heard

/-- What a sentence adds to its message. -/
def addition (h : Heard) : Addition :=
  ⟨h.now, h.sentence.fragmentNumber.toNat, h.sentence.fragment⟩

/-- Those of a message that are not given up at `now`. -/
def unexpired (maxAge : Nat) (now : Moment) (hs : List Heard) : List Heard :=
  if Expired maxAge now (hs.map addition) then [] else hs

/-- The sentences of a message that are there when one comes, of this message or another one. -/
def present (maxAge : Nat) (key : FragmentKey) (kept : List Heard) (h : Heard) : List Heard :=
  (if Receiver.keyOf h.sentence = key then [h] else []) ++ unexpired maxAge h.now kept

/-- The sentences of a message that are kept after all that was heard, the last one in front. -/
def gathered (maxAge : Nat) (key : FragmentKey) : List Heard → List Heard
  | [] => []
  | h :: earlier =>
    if h.sentence.isMultipart then
      let hs := present maxAge key (gathered maxAge key earlier) h
      if Receiver.keyOf h.sentence = key ∧ Complete (hs.map addition) key.total then [] else hs
    else gathered maxAge key earlier

/-- The sentences of its own message that are there when one comes. -/
def siblings (maxAge : Nat) (earlier : List Heard) (h : Heard) : List Heard :=
  let key := Receiver.keyOf h.sentence
  present maxAge key (gathered maxAge key earlier) h

/-- The last sentence with a number. -/
def recent? (hs : List Heard) (number : Nat) : Option Sentence :=
  (hs.find? fun h => h.addition.number == number).map (·.sentence)

/-- The sentences that the message of one is joined from when it comes, by their numbers. -/
def parts (maxAge : Nat) (earlier : List Heard) (h : Heard) : List Sentence :=
  (List.range' 1 h.sentence.fragmentCount.toNat).filterMap (recent? (siblings maxAge earlier h))

variable {maxAge number : Nat} {key : FragmentKey} {h h' : Heard} {hs kept earlier : List Heard}
  {s : Sentence}

/-! ## What is kept -/

theorem mem_of_mem_unexpired {now : Moment} (hm : h ∈ unexpired maxAge now hs) : h ∈ hs := by
  unfold unexpired at hm
  split at hm
  · exact absurd hm List.not_mem_nil
  · exact hm

theorem map_unexpired (maxAge : Nat) (now : Moment) (hs : List Heard) :
    (unexpired maxAge now hs).map addition =
      if Expired maxAge now (hs.map addition) then [] else hs.map addition := by
  unfold unexpired
  split <;> rfl

theorem of_mem_present (hm : h' ∈ present maxAge key kept h) :
    h' = h ∧ Receiver.keyOf h.sentence = key ∨ h' ∈ kept := by
  rcases List.mem_append.mp hm with hown | hkept
  · split at hown
    case isTrue hkey => exact .inl ⟨List.mem_singleton.mp hown, hkey⟩
    case isFalse => exact absurd hown List.not_mem_nil
  · exact .inr (mem_of_mem_unexpired hkept)

/-- What is kept of a message was heard, and is of this message. -/
theorem of_mem_gathered (hm : h ∈ gathered maxAge key earlier) :
    h ∈ earlier ∧ Receiver.keyOf h.sentence = key := by
  induction earlier with
  | nil => exact absurd hm List.not_mem_nil
  | cons last earlier ih =>
    have hearlier : h ∈ gathered maxAge key earlier →
        h ∈ last :: earlier ∧ Receiver.keyOf h.sentence = key :=
      fun hm => (ih hm).imp_left (List.mem_cons_of_mem last)
    rw [gathered] at hm
    split at hm
    case isFalse => exact hearlier hm
    case isTrue =>
      dsimp only at hm
      split at hm
      case isTrue => exact absurd hm List.not_mem_nil
      case isFalse =>
        rcases of_mem_present hm with ⟨rfl, hkey⟩ | hkept
        · exact ⟨List.mem_cons_self, hkey⟩
        · exact hearlier hkept

theorem of_mem_siblings (hm : h' ∈ siblings maxAge earlier h) :
    h' ∈ h :: earlier ∧ Receiver.keyOf h'.sentence = Receiver.keyOf h.sentence := by
  rcases of_mem_present hm with ⟨rfl, hkey⟩ | hkept
  · exact ⟨List.mem_cons_self, hkey⟩
  · exact (of_mem_gathered hkept).imp_left (List.mem_cons_of_mem h)

/-- The fragment of a sentence is put in front of what is there of its message. -/
theorem next_add_gathered (maxAge : Nat) (earlier : List Heard) (hw : h.sentence.WellFormed) :
    (Call.add h.now (Receiver.keyOf h.sentence) h.sentence.fragmentNumber.toNat
      h.sentence.fragment).next maxAge (fun key => (gathered maxAge key earlier).map addition) =
      fun key => (present maxAge key (gathered maxAge key earlier) h).map addition := by
  funext key
  have hpos : 1 ≤ h.sentence.fragmentNumber.toNat := UInt8.lt_iff_toNat_lt.mp hw.number_pos
  have hle : h.sentence.fragmentNumber.toNat ≤ (Receiver.keyOf h.sentence).total :=
    UInt8.le_iff_toNat_le.mp hw.number_le
  rw [Call.next, Call.added, present, List.map_append, map_unexpired]
  congr 1
  by_cases hkey : Receiver.keyOf h.sentence = key
  · rw [if_pos ⟨hkey, hpos, hkey ▸ hle⟩, if_pos hkey]
    rfl
  · rw [if_neg fun hall => hkey hall.1, if_neg hkey, List.map_nil]

/-- A message that is complete is forgotten. -/
theorem next_take_present (maxAge : Nat) (earlier : List Heard) (hm : h.sentence.isMultipart = true) :
    (Call.take (Receiver.keyOf h.sentence)).next maxAge
      (fun key => (present maxAge key (gathered maxAge key earlier) h).map addition) =
      fun key => (gathered maxAge key (h :: earlier)).map addition := by
  funext key
  rw [Call.next, gathered, if_pos hm]
  show (if Receiver.keyOf h.sentence = key ∧ Complete _ key.total then _ else _) = _
  dsimp only
  split <;> rfl

/-! ## What a sentence completes -/

theorem recent_eq (hs : List Heard) (number : Nat) :
    recent (hs.map addition) number = ((recent? hs number).map (·.fragment)).getD ⟨"", 0⟩ := by
  rw [recent, recent?, List.find?_map, Option.map_map, Option.map_map]
  rfl

theorem of_recent? (hr : recent? hs number = some s) :
    s.fragmentNumber.toNat = number ∧ ∃ h ∈ hs, h.sentence = s := by
  obtain ⟨h, hfind, rfl⟩ := Option.map_eq_some_iff.mp hr
  have hnumber : (h.addition.number == number) = true :=
    List.find?_some (p := fun h : Heard => h.addition.number == number) hfind
  exact ⟨beq_iff_eq.mp hnumber, h, List.mem_of_find?_eq_some hfind, rfl⟩

theorem exists_recent? {total : Nat} (hc : Complete (hs.map addition) total) (hpos : 1 ≤ number)
    (hle : number ≤ total) : ∃ s, recent? hs number = some s := by
  obtain ⟨a, ha, rfl⟩ := hc number hpos hle
  obtain ⟨h, hh, rfl⟩ := List.mem_map.mp ha
  rw [recent?]
  cases hfind : hs.find? fun h' => h'.addition.number == h.addition.number with
  | none => exact absurd (beq_self_eq_true _) (List.find?_eq_none.mp hfind h hh)
  | some h' => exact ⟨h'.sentence, rfl⟩

theorem filterMap_eq_of_forall {α β γ : Type} {f : α → Option β} {g : β → γ} {k : α → γ}
    {xs : List α} (h : ∀ x ∈ xs, ∃ b, f x = some b ∧ g b = k x) :
    (xs.filterMap f).map g = xs.map k := by
  induction xs with
  | nil => rfl
  | cons x xs ih =>
    obtain ⟨b, hb, hg⟩ := h x List.mem_cons_self
    rw [List.filterMap_cons_some hb, List.map_cons, List.map_cons, hg,
      ih fun y hy => h y (List.mem_cons_of_mem x hy)]

/-- All parts are there. -/
def Completes (maxAge : Nat) (earlier : List Heard) (h : Heard) : Prop :=
  Complete ((siblings maxAge earlier h).map addition) h.sentence.fragmentCount.toNat

theorem Completes.exists_recent? (hc : Completes maxAge earlier h)
    (hn : number ∈ List.range' 1 h.sentence.fragmentCount.toNat) :
    ∃ s, recent? (siblings maxAge earlier h) number = some s := by
  rw [List.mem_range'_1] at hn
  exact Heard.exists_recent? hc hn.1 (by omega)

theorem siblings_ne_nil (maxAge : Nat) (earlier : List Heard) (h : Heard) :
    siblings maxAge earlier h ≠ [] := by
  rw [siblings, present, if_pos rfl]
  exact List.cons_ne_nil _ _

theorem Completes.map_fragment (hc : Completes maxAge earlier h) :
    (parts maxAge earlier h).map (·.fragment) =
      (List.range' 1 h.sentence.fragmentCount.toNat).map
        (recent ((siblings maxAge earlier h).map addition)) := by
  refine filterMap_eq_of_forall fun number hn => ?_
  obtain ⟨s, hs⟩ := hc.exists_recent? hn
  refine ⟨s, hs, ?_⟩
  rw [recent_eq, hs]
  rfl

theorem Completes.map_number (hc : Completes maxAge earlier h) :
    (parts maxAge earlier h).map (·.fragmentNumber.toNat) =
      List.range' 1 h.sentence.fragmentCount.toNat := by
  refine (filterMap_eq_of_forall (k := id) fun number hn => ?_).trans (List.map_id _)
  obtain ⟨s, hs⟩ := hc.exists_recent? hn
  exact ⟨s, hs, (of_recent? hs).1⟩

/-- The sentence that completes a message is one of its parts. -/
theorem sentence_mem_parts (hw : h.sentence.WellFormed) :
    h.sentence ∈ parts maxAge earlier h := by
  have hpos : 1 ≤ h.sentence.fragmentNumber.toNat := UInt8.lt_iff_toNat_lt.mp hw.number_pos
  have hle := UInt8.le_iff_toNat_le.mp hw.number_le
  refine List.mem_filterMap.mpr ⟨h.sentence.fragmentNumber.toNat, ?_, ?_⟩
  · rw [List.mem_range'_1]
    omega
  · simp [recent?, siblings, present, addition]

/-- Every part was heard, and all have the key in common. -/
theorem of_mem_parts (hm : s ∈ parts maxAge earlier h) :
    (∃ h' ∈ h :: earlier, h'.sentence = s) ∧ Receiver.keyOf s = Receiver.keyOf h.sentence := by
  obtain ⟨number, -, hs⟩ := List.mem_filterMap.mp hm
  obtain ⟨-, h', hmem, rfl⟩ := of_recent? hs
  exact ⟨⟨h', (of_mem_siblings hmem).1, rfl⟩, (of_mem_siblings hmem).2⟩

end Heard

namespace Receiver

open Heard

variable {r : Receiver} {settings : ReceiverSettings} {maxAge : Nat} {earlier : List Heard}
  {now : Moment} {line : String} {s : Sentence} {front back lines : List (Moment × String)}
  {received : Received}

/-- The sentences that were accepted of a feed, the last one in front. -/
def heard (settings : ReceiverSettings) (lines : List (Moment × String)) : List Heard :=
  (lines.filterMap fun (now, line) =>
    (Sentence.parse line settings.validateChecksum).toOption.map (⟨now, ·⟩)).reverse

theorem heard_append_of_refused {e : Error}
    (h : Sentence.parse line settings.validateChecksum = .error e) :
    heard settings (lines ++ [(now, line)]) = heard settings lines := by
  simp [heard, h, Except.toOption]

theorem heard_append (h : Sentence.parse line settings.validateChecksum = .ok s) :
    heard settings (lines ++ [(now, line)]) = ⟨now, s⟩ :: heard settings lines := by
  simp [heard, h, Except.toOption]

theorem exists_of_mem_heard {h : Heard} (hm : h ∈ heard settings lines) :
    ∃ x ∈ lines, Sentence.parse x.2 settings.validateChecksum = .ok h.sentence := by
  rw [heard, List.mem_reverse, List.mem_filterMap] at hm
  obtain ⟨⟨now, line⟩, hx, hm⟩ := hm
  obtain ⟨s, hs, rfl⟩ := Option.map_eq_some_iff.mp hm
  refine ⟨(now, line), hx, ?_⟩
  cases hparse : Sentence.parse line settings.validateChecksum with
  | error e => rw [hparse] at hs; cases hs
  | ok s' => rw [hparse] at hs; cases hs; rfl

/-- A receiver with some settings, the table of which is the summary of what was heard. -/
structure Remembers (r : Receiver) (settings : ReceiverSettings) (earlier : List Heard) : Prop where
  settings_eq : r.settings = settings
  maxAge : r.table.maxAge = settings.maxReassemblyAge
  recalls : r.table.Recalls fun key =>
    (gathered settings.maxReassemblyAge key earlier).map addition

theorem Remembers.added (h : r.Remembers settings earlier) (now : Moment) (hw : s.WellFormed) :
    (r.added now s).maxAge = settings.maxReassemblyAge ∧ (r.added now s).Recalls fun key =>
      (present settings.maxReassemblyAge key (gathered settings.maxReassemblyAge key earlier)
        ⟨now, s⟩).map addition := by
  have hmax : (r.added now s).maxAge = r.table.maxAge :=
    maxAge_apply (Call.add now (keyOf s) s.fragmentNumber.toNat s.fragment)
  have hadd : (r.added now s).Recalls ((Call.add now (keyOf s) s.fragmentNumber.toNat
      s.fragment).next r.table.maxAge _) := h.recalls.add
  rw [h.maxAge] at hmax hadd
  rw [← next_add_gathered (h := ⟨now, s⟩) _ _ hw]
  exact ⟨hmax, hadd⟩

/-- What a sentence leaves in the table. -/
theorem Remembers.collect (h : r.Remembers settings earlier)
    (hr : settings.enableReassembly = true) (now : Moment) (hw : s.WellFormed) :
    (r.collect now s).1.maxAge = settings.maxReassemblyAge ∧
      (r.collect now s).1.Recalls fun key =>
        (gathered settings.maxReassemblyAge key (⟨now, s⟩ :: earlier)).map addition := by
  cases hm : s.isMultipart with
  | false =>
    have hsame : ∀ key, gathered settings.maxReassemblyAge key (⟨now, s⟩ :: earlier) =
        gathered settings.maxReassemblyAge key earlier := fun key =>
      if_neg (by rw [hm]; decide)
    rw [collect_of_single hm]
    simp only [hsame]
    exact ⟨h.maxAge, h.recalls⟩
  | true =>
    obtain ⟨hmax, hadded⟩ := h.added now hw
    have htake : ((Call.take (keyOf s)).apply (r.added now s)).Recalls
        ((Call.take (keyOf s)).next (r.added now s).maxAge _) := hadded.take
    rw [hmax] at htake
    rw [table_collect hm (h.settings_eq ▸ hr), maxAge_apply,
      ← next_take_present (h := ⟨now, s⟩) _ _ hm]
    exact ⟨hmax, htake⟩

theorem Remembers.decode (h : r.Remembers settings (heard settings lines))
    (hr : settings.enableReassembly = true) :
    (r.decode now line).1.Remembers settings (heard settings (lines ++ [(now, line)])) := by
  obtain rfl := h.settings_eq
  cases hparse : Sentence.parse line r.settings.validateChecksum with
  | error e =>
    rw [decode_of_refused hparse, heard_append_of_refused hparse]
    exact h
  | ok s =>
    obtain ⟨statistics, hdecode⟩ := r.decode_of_parse now hparse
    obtain ⟨hmax, hrecalls⟩ := h.collect hr now (Sentence.wellFormed_of_parse hparse)
    rw [hdecode, heard_append hparse]
    exact ⟨rfl, hmax, hrecalls⟩

/-- After any feed, the table is the summary of what was heard. -/
theorem remembers_decodeAll (hr : settings.enableReassembly = true)
    (lines : List (Moment × String)) :
    ((start settings).decodeAll lines).1.Remembers settings (heard settings lines) := by
  induction lines using List.reverseRecOn with
  | nil => exact ⟨rfl, rfl, List.nodup_nil, fun _ => rfl⟩
  | append_singleton lines l ih =>
    obtain ⟨now, line⟩ := l
    rw [decodeAll_append]
    exact ih.decode hr

/-- A sentence that completes its message completes it from the parts that were heard. -/
theorem Remembers.collect_eq_ok (h : r.Remembers settings earlier)
    (hr : settings.enableReassembly = true) (hm : s.isMultipart = true) (hw : s.WellFormed)
    {whole : Fragment} (hwhole : (r.collect now s).2 = .ok whole) :
    Completes settings.maxReassemblyAge earlier ⟨now, s⟩ ∧
      whole = join ((parts settings.maxReassemblyAge earlier ⟨now, s⟩).map (·.fragment)) := by
  have htake : (r.added now s).take? (keyOf s) = _ := (h.added now hw).2.take?
  rw [collect_of_multipart hm (h.settings_eq ▸ hr), htake] at hwhole
  by_cases hc : Completes settings.maxReassemblyAge earlier ⟨now, s⟩
  · have hthere : (siblings settings.maxReassemblyAge earlier ⟨now, s⟩).map addition ≠ [] :=
      List.map_eq_nil_iff.not.mpr (siblings_ne_nil _ _ _)
    rw [if_pos ⟨hthere, hc⟩] at hwhole
    refine ⟨hc, ?_⟩
    rw [hc.map_fragment]
    exact (Except.ok.inj hwhole).symm
  · rw [if_neg fun hall => hc hall.2] at hwhole
    cases hwhole

/-! ## Whose message it is -/

/-- Sentences of a feed that have a key in common are all about the own vessel or all about
others. -/
def Unmixed (settings : ReceiverSettings) (lines : List (Moment × String)) : Prop :=
  ∀ x ∈ lines, ∀ y ∈ lines, ∀ u v,
    Sentence.parse x.2 settings.validateChecksum = .ok u →
    Sentence.parse y.2 settings.validateChecksum = .ok v →
    keyOf u = keyOf v → u.address.formatter = v.address.formatter

theorem isOwnVessel_iff {a : Address} :
    (a.isOwnVessel = true ↔ a.formatter = .vdo) ∧ (a.isOwnVessel = false ↔ a.formatter = .vdm) := by
  unfold Address.isOwnVessel
  cases a.formatter <;> decide

/-- The result of a line in the middle of a feed. -/
theorem getElem?_decodeAll {r : Receiver} :
    (r.decodeAll (front ++ (now, line) :: back)).2[front.length]? =
      some ((r.decodeAll front).1.decode now line).2 := by
  rw [decodeAll_append, decodeAll_cons]
  have hlength : ((r.decodeAll front).2).length = front.length := length_decodeAll
  rw [← hlength, List.getElem?_append_right le_rfl, Nat.sub_self]
  rfl

/-- A message that comes with the last of several sentences is joined from sentences of the feed,
one of each number and this one among them, that have the sequence id, the channel and the count in
common. Whose message it is says the last one; if the others say the same, it is about the own
vessel just if all of them are. They do say the same if no two sentences of the feed that have these
three in common differ. -/
theorem ownVessel_of_joined (settings : ReceiverSettings) (front back : List (Moment × String))
    (now : Moment) (line : String) (hr : settings.enableReassembly = true)
    (hparse : Sentence.parse line settings.validateChecksum = .ok s) (hm : s.isMultipart = true)
    (h : ((start settings).decodeAll (front ++ (now, line) :: back)).2[front.length]? =
      some (.ok received)) :
    let joined := parts settings.maxReassemblyAge (heard settings front) ⟨now, s⟩
    joined.map (·.fragmentNumber.toNat) = List.range' 1 s.fragmentCount.toNat ∧
      s ∈ joined ∧
      (∀ part ∈ joined, keyOf part = keyOf s ∧ ∃ x ∈ front ++ [(now, line)],
        Sentence.parse x.2 settings.validateChecksum = .ok part) ∧
      (∃ whole, join (joined.map (·.fragment)) = whole ∧
        Message.ofPayload whole.payload whole.fillBits = .ok received.message) ∧
      (received.ownVessel = true ↔ s.address.formatter = .vdo) ∧
      (received.ownVessel = false ↔ s.address.formatter = .vdm) ∧
      ((∀ part ∈ joined, part.address.formatter = s.address.formatter) →
        (received.ownVessel = true ↔ ∀ part ∈ joined, part.address.formatter = .vdo) ∧
        (received.ownVessel = false ↔ ∀ part ∈ joined, part.address.formatter = .vdm)) ∧
      (Unmixed settings (front ++ [(now, line)]) →
        ∀ part ∈ joined, part.address.formatter = s.address.formatter) := by
  intro joined
  have hw := Sentence.wellFormed_of_parse hparse
  have hstate := remembers_decodeAll hr front
  rw [getElem?_decodeAll] at h
  obtain ⟨statistics, hdecode⟩ := Receiver.decode_of_parse (((start settings).decodeAll front).1) now
    (hstate.settings_eq.symm ▸ hparse)
  rw [hdecode] at h
  obtain ⟨whole, hwhole, hopen⟩ := exists_of_bind_eq_ok (Option.some.inj h)
  obtain ⟨hcompletes, rfl⟩ := hstate.collect_eq_ok hr hm hw hwhole
  obtain ⟨hmessage, hown, -⟩ := open?_eq_ok hopen
  have hself : s ∈ joined := sentence_mem_parts hw
  have hfeed : ∀ part ∈ joined, keyOf part = keyOf s ∧ ∃ x ∈ front ++ [(now, line)],
      Sentence.parse x.2 settings.validateChecksum = .ok part := by
    intro part hpart
    obtain ⟨⟨h', hmem, rfl⟩, hkey⟩ := of_mem_parts hpart
    refine ⟨hkey, exists_of_mem_heard ?_⟩
    rwa [heard_append hparse]
  have hall : ∀ f, (∀ part ∈ joined, part.address.formatter = s.address.formatter) →
      (s.address.formatter = f ↔ ∀ part ∈ joined, part.address.formatter = f) := fun f hsame =>
    ⟨fun hs part hpart => (hsame part hpart).trans hs, fun hparts => hparts s hself⟩
  rw [hown, isOwnVessel_iff.1, isOwnVessel_iff.2]
  refine ⟨hcompletes.map_number, hself, hfeed, ⟨_, rfl, hmessage⟩, Iff.rfl, Iff.rfl,
    fun hsame => ⟨hall .vdo hsame, hall .vdm hsame⟩, fun hunmixed part hpart => ?_⟩
  obtain ⟨hkey, x, hx, hxparse⟩ := hfeed part hpart
  exact hunmixed x hx (now, line) (List.mem_append_right _ List.mem_cons_self) part s hxparse hparse
    hkey

/-- The first sentence of a message about another vessel, with the key of `secondPart`. -/
def othersPart : String :=
  "!AIVDM,2,1,0,B,702R5`hnw7`S,0*51"

/-- Both sentences of a message about the own vessel come after one about another vessel, with the
same key, has become too old. -/
theorem ownVessel_of_joined_afterExpiry :
    ∃ s received, Sentence.parse firstPart true = .ok s ∧ s.isMultipart = true ∧
      ((start {}).decodeAll
        [(⟨0, 0⟩, othersPart), (⟨60, 1⟩, secondPart), (⟨60, 2⟩, firstPart)]).2[2]? =
          some (.ok received) ∧
      received.ownVessel = true ∧
      ∀ part ∈ parts 60 (heard {} [(⟨0, 0⟩, othersPart), (⟨60, 1⟩, secondPart)]) ⟨⟨60, 2⟩, s⟩,
        part.address.formatter = .vdo := by
  have hsentence : (Sentence.parse firstPart true).toOption.map (fun s =>
      (s.isMultipart, s.address.formatter,
        (parts 60 (heard {} [(⟨0, 0⟩, othersPart), (⟨60, 1⟩, secondPart)]) ⟨⟨60, 2⟩, s⟩).map
          (·.address.formatter))) = some (true, .vdo, [.vdo, .vdo]) := by
    decide +kernel
  have hresult : (((start {}).decodeAll
      [(⟨0, 0⟩, othersPart), (⟨60, 1⟩, secondPart), (⟨60, 2⟩, firstPart)]).2[2]?).map
        Except.isOk = some true := by
    decide +kernel
  obtain ⟨result, hrun, hok⟩ := Option.map_eq_some_iff.mp hresult
  cases result with
  | error e => cases hok
  | ok received =>
    cases hparse : Sentence.parse firstPart true with
    | error e => rw [hparse] at hsentence; cases hsentence
    | ok s =>
      rw [hparse] at hsentence
      obtain ⟨hm, hparts⟩ := Prod.mk.inj (Option.some.inj hsentence)
      obtain ⟨hs, hparts⟩ := Prod.mk.inj hparts
      have hvdo : ∀ part ∈ parts 60 (heard {} [(⟨0, 0⟩, othersPart), (⟨60, 1⟩, secondPart)])
          ⟨⟨60, 2⟩, s⟩, part.address.formatter = .vdo := by
        intro part hpart
        have hformatter := List.mem_map_of_mem (f := (·.address.formatter)) hpart
        rw [hparts] at hformatter
        simpa using hformatter
      obtain ⟨-, -, -, -, -, -, hsame, -⟩ := ownVessel_of_joined {} [(⟨0, 0⟩, othersPart),
        (⟨60, 1⟩, secondPart)] [] ⟨60, 2⟩ firstPart rfl hparse hm hrun
      have hagree := hsame fun part hpart => (hvdo part hpart).trans hs.symm
      exact ⟨s, received, rfl, hm, hrun, hagree.1.mpr hvdo, hvdo⟩

/-- A message about another vessel is taken for one about the own vessel when the sentence that
completes it says so. -/
theorem ownVessel_of_two_formatters :
    ((start {}).decodeAll [(⟨0, 0⟩, othersPart), (⟨0, 0⟩, secondPart)]).2.map
        (fun result => result.toOption.map (·.ownVessel)) = [none, some true] ∧
      (Sentence.parse secondPart true).toOption.map (fun s =>
        (parts 60 (heard {} [(⟨0, 0⟩, othersPart)]) ⟨⟨0, 0⟩, s⟩).map (·.address.formatter)) =
          some [.vdm, .vdo] := by
  decide +kernel

end Receiver

end Transponder

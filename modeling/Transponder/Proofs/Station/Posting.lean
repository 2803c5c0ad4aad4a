import Transponder.Proofs.Station.Sending
import Std.Data.String.ToNat

/-!
# Messages sent one after the other

A transmitter without a sequence id of its own gives its messages in several sentences the ids from
0 to 9 in turn, so ten of them in a row have different ids (`sent_of_encodeAll`). `posted` is the
list of all the sentences with the messages that they belong to, and `Consistent` says what holds of
it in whatever order it is: those of one message are the fragments of its payload, and those of two
messages have different keys.
-/

namespace Transponder

/-- The sentences of messages that are sent one after the other. -/
def Transmitter.encodeAll (t : Transmitter) : List Message → Except Error (List (List Sentence))
  | [] => .ok []
  | m :: ms =>
    match t.encode m with
    | (t, .ok ss) => (t.encodeAll ms).map (ss :: ·)
    | (_, .error e) => .error e

/-- A sentence on its way, with the message that it belongs to and the place of that message. -/
structure Posted where
  index : Nat
  message : Message
  sentence : Sentence

/-- The sentences of messages, with the places of these from `first` on. -/
def posted (first : Nat) : List Message → List (List Sentence) → List Posted
  | m :: ms, ss :: groups => ss.map (⟨first, m, ·⟩) ++ posted (first + 1) ms groups
  | _, _ => []

namespace Transmitter

variable {t : Transmitter} {settings : TransmitterSettings} {m : Message} {ms : List Message}
  {ss : List Sentence} {groups : List (List Sentence)}

/-! ## Sequence ids take turns -/

theorem encodeAll_cons_eq_ok (h : t.encodeAll (m :: ms) = .ok groups) :
    ∃ ss rest, Spread t.settings (t.label ss.length).1 m ss ∧
      (t.label ss.length).2.encodeAll ms = .ok rest ∧ groups = ss :: rest := by
  unfold encodeAll at h
  split at h
  case h_2 => cases h
  case h_1 t' ss he =>
    obtain ⟨hspread, rfl⟩ := encode_eq_ok he
    cases hr : (t.label ss.length).2.encodeAll ms with
    | error e => rw [hr] at h; cases h
    | ok rest =>
      rw [hr] at h
      cases h
      exact ⟨ss, rest, hspread, hr, rfl⟩

theorem label_of_le {count : Nat} (h : count ≤ 1) : t.label count = ("", t) :=
  if_pos h

/-- The transmitter after the next sequence id was taken. -/
def advance (t : Transmitter) : Transmitter :=
  { t with nextSequenceId := (t.nextSequenceId + 1) % (maxSequenceId + 1) }

theorem nextSequenceId_advance_le : t.advance.nextSequenceId ≤ maxSequenceId :=
  Nat.le_of_lt_succ (Nat.mod_lt _ (Nat.succ_pos _))

theorem label_of_lt {count : Nat} (hr : t.settings.sequenceId = none) (h : 1 < count) :
    t.label count = (toString t.nextSequenceId, t.advance) := by
  rw [label, if_neg (Nat.not_le.mpr h), takeSequenceId, hr]
  rfl

/-- The number of messages in several sentences. -/
def splitCount (groups : List (List Sentence)) : Nat :=
  groups.countP fun ss => 1 < ss.length

theorem splitCount_cons_of_le (h : ss.length ≤ 1) : splitCount (ss :: groups) = splitCount groups :=
  List.countP_cons_of_neg (by simpa using h)

theorem splitCount_cons_of_lt (h : 1 < ss.length) :
    splitCount (ss :: groups) = splitCount groups + 1 :=
  List.countP_cons_of_pos (by simpa using h)

/-- Messages in several sentences get the ids that follow one another. -/
theorem exists_sequenceId (hr : t.settings.sequenceId = none)
    (hn : t.nextSequenceId ≤ maxSequenceId) (h : t.encodeAll ms = .ok groups) :
    ∀ ss ∈ groups, 1 < ss.length → ∃ k < splitCount groups, ∀ s ∈ ss,
      s.sequenceId = toString ((t.nextSequenceId + k) % (maxSequenceId + 1)) := by
  induction ms generalizing t groups with
  | nil => cases h; exact fun _ hm => nomatch hm
  | cons m ms ih =>
    obtain ⟨ss, rest, hspread, hrest, rfl⟩ := encodeAll_cons_eq_ok h
    rcases Nat.lt_or_ge 1 ss.length with hmany | hone
    · rw [label_of_lt hr hmany] at hspread hrest
      rw [splitCount_cons_of_lt hmany]
      intro ss' hmem hmany'
      rcases List.mem_cons.mp hmem with rfl | hmem
      · refine ⟨0, Nat.succ_pos _, fun s hs => ?_⟩
        rw [hspread.sequenceId hs, Nat.add_zero, Nat.mod_eq_of_lt (Nat.lt_succ_of_le hn)]
      · obtain ⟨k, hk, hid⟩ := ih (t := t.advance) hr nextSequenceId_advance_le hrest ss' hmem hmany'
        refine ⟨k + 1, Nat.succ_lt_succ hk, fun s hs => ?_⟩
        have hturn : (t.advance.nextSequenceId + k) % (maxSequenceId + 1) =
            (t.nextSequenceId + (k + 1)) % (maxSequenceId + 1) := by
          rw [advance, Nat.mod_add_mod, Nat.add_assoc, Nat.add_comm 1 k]
        rw [hid s hs, hturn]
    · rw [label_of_le hone] at hrest
      rw [splitCount_cons_of_le hone]
      intro ss' hmem hmany'
      rcases List.mem_cons.mp hmem with rfl | hmem
      · exact absurd hmany' (Nat.not_lt.mpr hone)
      · exact ih hr hn hrest ss' hmem hmany'

/-- The sentences that messages are sent in: no id is used twice for messages in several sentences. -/
inductive Sent (settings : TransmitterSettings) : List Message → List (List Sentence) → Prop where
  | nil : Sent settings [] []
  | cons {id : String} {m : Message} {ms : List Message} {ss : List Sentence}
      {groups : List (List Sentence)} : Spread settings id m ss →
      (1 < ss.length → ∀ ss' ∈ groups, 1 < ss'.length → ∀ s ∈ ss', s.sequenceId ≠ id) →
      Sent settings ms groups → Sent settings (m :: ms) (ss :: groups)

/-- The ids of ten messages in several sentences are different. -/
theorem sent_of_encodeAll (hr : t.settings.sequenceId = none) (h : t.encodeAll ms = .ok groups)
    (hten : splitCount groups ≤ maxSequenceId + 1) : Sent t.settings ms groups := by
  induction ms generalizing t groups with
  | nil => cases h; exact .nil
  | cons m ms ih =>
    obtain ⟨ss, rest, hspread, hrest, rfl⟩ := encodeAll_cons_eq_ok h
    rcases Nat.lt_or_ge 1 ss.length with hmany | hone
    · rw [splitCount_cons_of_lt hmany] at hten
      rw [label_of_lt hr hmany] at hspread hrest
      refine .cons hspread (fun _ ss' hmem hmany' s hs he => ?_)
        (ih (t := t.advance) hr hrest (Nat.le_of_succ_le hten))
      obtain ⟨k, hk, hid⟩ := exists_sequenceId (t := t.advance) hr nextSequenceId_advance_le hrest
        ss' hmem hmany'
      -- Within nine turns after an id it does not come again.
      have hturn : ((t.nextSequenceId + 1) % 10 + k) % 10 ≠ t.nextSequenceId := by
        have hk : k < 9 := Nat.lt_of_lt_of_le hk (Nat.le_of_succ_le_succ hten)
        omega
      exact hturn (Nat.repr_injective ((hid s hs).symm.trans he))
    · rw [splitCount_cons_of_le hone] at hten
      rw [label_of_le hone] at hrest
      exact .cons hspread (fun hmany => absurd hmany (Nat.not_lt.mpr hone)) (ih hr hrest hten)

end Transmitter

/-! ## What is on its way -/

open Transmitter

theorem Sentence.isMultipart_iff {s : Sentence} :
    s.isMultipart = true ↔ 1 < s.fragmentCount.toNat :=
  decide_eq_true_iff.trans UInt8.lt_iff_toNat_lt

/-- Whether a sentence is one of several of the message with a key. -/
def FragmentKey.owns (key : FragmentKey) (p : Posted) : Bool :=
  p.sentence.isMultipart && Receiver.keyOf p.sentence == key

theorem FragmentKey.owns_iff {p : Posted} {key : FragmentKey} :
    key.owns p = true ↔ p.sentence.isMultipart = true ∧ Receiver.keyOf p.sentence = key := by
  rw [owns, Bool.and_eq_true, beq_iff_eq]

/-- Sentences on their way, in any order: those of a message are its fragments, and those of two
messages have different keys. -/
structure Consistent (settings : TransmitterSettings) (all : List Posted) : Prop where
  wellFormed : ∀ p ∈ all, p.sentence.WellFormed
  whole : ∀ p ∈ all, ∃ fragments,
    ((all.filter (·.index = p.index)).map (·.sentence.numberedFragment)).Perm (numbered fragments) ∧
      fragments.length = p.sentence.fragmentCount.toNat ∧
      Receiver.open? p.sentence (FragmentTable.join fragments) = .ok (receipt settings p.message)
  owns : ∀ p ∈ all, p.sentence.isMultipart = true → ∀ q ∈ all,
    ((Receiver.keyOf p.sentence).owns q = true ↔ q.index = p.index)

theorem Consistent.perm {settings : TransmitterSettings} {all all' : List Posted}
    (h : Consistent settings all) (hp : all.Perm all') : Consistent settings all' where
  wellFormed p hm := h.wellFormed p (hp.mem_iff.mpr hm)
  whole p hm := by
    obtain ⟨fragments, hf, hrest⟩ := h.whole p (hp.mem_iff.mpr hm)
    exact ⟨fragments, (((hp.filter _).map _).symm.trans hf), hrest⟩
  owns p hm hmany q hq := h.owns p (hp.mem_iff.mpr hm) hmany q (hp.mem_iff.mpr hq)

variable {settings : TransmitterSettings} {ms : List Message} {groups : List (List Sentence)}
  {first : Nat} {p : Posted}

/-- Where a sentence on its way comes from. -/
theorem exists_of_mem_posted (h : p ∈ posted first ms groups) :
    ∃ i ss, p.index = first + i ∧ ms[i]? = some p.message ∧ groups[i]? = some ss ∧
      p.sentence ∈ ss := by
  induction ms generalizing first groups with
  | nil => cases h
  | cons m ms ih =>
    cases groups with
    | nil => cases h
    | cons ss groups =>
      rcases List.mem_append.mp h with h | h
      · obtain ⟨s, hs, rfl⟩ := List.mem_map.mp h
        exact ⟨0, ss, rfl, rfl, rfl, hs⟩
      · obtain ⟨i, ss', hindex, hm, hss, hs⟩ := ih h
        exact ⟨i + 1, ss', by omega, hm, hss, hs⟩

theorem Transmitter.Sent.spread (h : Sent settings ms groups) :
    ∀ ss ∈ groups, ∃ id m, Spread settings id m ss := by
  induction h with
  | nil => exact fun _ hm => nomatch hm
  | cons hspread _ _ ih => exact List.forall_mem_cons.mpr ⟨⟨_, _, hspread⟩, ih⟩

theorem Transmitter.Sent.encode_bind_decode (h : Sent settings ms groups) :
    ∀ m ∈ ms, m.encode.bind Message.decode = .ok m.normalised := by
  induction h with
  | nil => exact fun _ hm => nomatch hm
  | cons hspread _ _ ih => exact List.forall_mem_cons.mpr ⟨hspread.encode_bind_decode, ih⟩

/-- Sentences of a message and of a later one, both in several sentences, have different ids. -/
theorem sequenceId_ne {id : String} {m : Message} {ss : List Sentence} {s : Sentence}
    (hspread : Spread settings id m ss) (hs : s ∈ ss)
    (hid : 1 < ss.length → ∀ ss' ∈ groups, 1 < ss'.length → ∀ s ∈ ss', s.sequenceId ≠ id)
    (hsent : Sent settings ms groups) (hp : p ∈ posted first ms groups)
    (hmany : s.isMultipart = true) (hmany' : p.sentence.isMultipart = true) :
    p.sentence.sequenceId ≠ s.sequenceId := by
  obtain ⟨i, ss', -, -, hss', hs'⟩ := exists_of_mem_posted hp
  have hmem := List.mem_of_getElem? hss'
  obtain ⟨id', m', hspread'⟩ := hsent.spread ss' hmem
  rw [Sentence.isMultipart_iff, hspread.fragmentCount hs] at hmany
  rw [Sentence.isMultipart_iff, hspread'.fragmentCount hs'] at hmany'
  rw [hspread.sequenceId hs]
  exact hid hmany ss' hmem hmany' p.sentence hs'

/-- The sentences of a message are consistent. -/
theorem Transmitter.Spread.consistent {id : String} {m : Message} {ss : List Sentence}
    (h : Spread settings id m ss) (first : Nat) :
    Consistent settings (ss.map (Posted.mk first m ·)) := by
  have hform : ∀ p ∈ ss.map (Posted.mk first m ·), ∃ s ∈ ss, p = ⟨first, m, s⟩ := fun p hp =>
    (List.mem_map.mp hp).imp fun s h => ⟨h.1, h.2.symm⟩
  refine ⟨fun p hp => ?_, fun p hp => ?_, fun p hp hmany q hq => ?_⟩
  · obtain ⟨s, hs, rfl⟩ := hform p hp
    exact h.wellFormed hs
  · obtain ⟨s, hs, rfl⟩ := hform p hp
    refine ⟨ss.map Sentence.fragment, ?_, ?_, h.open?_join hs⟩
    · have hall : (ss.map (Posted.mk first m ·)).filter (·.index = first) =
          ss.map (Posted.mk first m ·) := by
        simp [List.filter_eq_self]
      rw [hall, List.map_map, ← h.map_numberedFragment]
      exact List.Perm.refl _
    · rw [List.length_map, h.fragmentCount hs]
  · obtain ⟨s, hs, rfl⟩ := hform p hp
    obtain ⟨s', hs', rfl⟩ := hform q hq
    refine iff_of_true (FragmentKey.owns_iff.mpr ⟨?_, ?_⟩) rfl
    · rw [Sentence.isMultipart_iff, h.fragmentCount hs] at hmany
      rwa [Sentence.isMultipart_iff, h.fragmentCount hs']
    · rw [h.keyOf_eq hs, h.keyOf_eq hs']

/-- Sentences of different messages, whose ids are different if they are parts. -/
theorem Consistent.append {front back : List Posted} (hf : Consistent settings front)
    (hb : Consistent settings back) (hindex : ∀ p ∈ front, ∀ q ∈ back, q.index ≠ p.index)
    (hid : ∀ p ∈ front, ∀ q ∈ back, p.sentence.isMultipart = true → q.sentence.isMultipart = true →
      q.sentence.sequenceId ≠ p.sentence.sequenceId) :
    Consistent settings (front ++ back) := by
  refine ⟨fun p hp => ?_, fun p hp => ?_, fun p hp hmany q hq => ?_⟩
  · exact (List.mem_append.mp hp).elim (hf.wellFormed p) (hb.wellFormed p)
  · rw [List.filter_append]
    rcases List.mem_append.mp hp with hp | hp
    · have hback : back.filter (·.index = p.index) = [] := by
        simpa using fun q hq => hindex p hp q hq
      rw [hback, List.append_nil]
      exact hf.whole p hp
    · have hfront : front.filter (·.index = p.index) = [] := by
        simpa using fun q hq => (hindex q hq p hp).symm
      rw [hfront, List.nil_append]
      exact hb.whole p hp
  · rcases List.mem_append.mp hp with hp | hp <;> rcases List.mem_append.mp hq with hq | hq
    · exact hf.owns p hp hmany q hq
    · refine iff_of_false (fun ho => ?_) (hindex p hp q hq)
      obtain ⟨hmany', hkey⟩ := FragmentKey.owns_iff.mp ho
      exact hid p hp q hq hmany hmany' (congrArg FragmentKey.sequenceId hkey)
    · refine iff_of_false (fun ho => ?_) (hindex q hq p hp).symm
      obtain ⟨hmany', hkey⟩ := FragmentKey.owns_iff.mp ho
      exact hid q hq p hp hmany' hmany (congrArg FragmentKey.sequenceId hkey.symm)
    · exact hb.owns p hp hmany q hq

/-- What messages are sent in is consistent. -/
theorem Transmitter.Sent.consistent (h : Sent settings ms groups) (first : Nat) :
    Consistent settings (posted first ms groups) := by
  induction h generalizing first with
  | nil =>
    exact {
      wellFormed := fun _ hp => by cases hp
      whole := fun _ hp => by cases hp
      owns := fun _ hp => by cases hp }
  | @cons id m ms ss groups hspread hid hsent ih =>
    refine (hspread.consistent first).append (ih (first + 1)) ?_ ?_
    · intro p hp q hq
      obtain ⟨s, -, rfl⟩ := List.mem_map.mp hp
      obtain ⟨i, -, hindex, -⟩ := exists_of_mem_posted hq
      show q.index ≠ first
      omega
    · intro p hp q hq
      obtain ⟨s, hs, rfl⟩ := List.mem_map.mp hp
      exact sequenceId_ne hspread hs hid hsent hq

end Transponder

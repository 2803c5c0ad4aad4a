import Transponder.Proofs.Station.Posting

/-!
# Sentences in any order

Sentences that were sent arrive in any order. `Waits` is what a receiver knows in between: of the
messages some sentences of which are still to come it holds those that have come, and of the others
nothing. A sentence keeps it so (`Waits.decode`), hence all of them do (`Waits.decodeAll`), and each
message is received with its last sentence (`decodeAll_of_perm`).
-/

namespace Transponder

open Transmitter

/-- Takes lines one after the other, and keeps what became of each of them. -/
def Receiver.decodeAll (r : Receiver) :
    List (Moment × String) → Receiver × List (Except Error Received)
  | [] => (r, [])
  | (now, line) :: rest =>
    let (r, result) := r.decode now line
    let (r, results) := r.decodeAll rest
    (r, result :: results)

/-- What becomes of a sentence if `rest` is still to come: it completes its message, or some of its
sentences are missing. -/
def outcome (settings : TransmitterSettings) (p : Posted) (rest : List Posted) :
    Except Error Received :=
  let missing := rest.countP (·.index = p.index)
  let total := p.sentence.fragmentCount.toNat
  if missing = 0 then .ok (receipt settings p.message)
  else .error (.incomplete (total - missing) total)

/-- What becomes of sentences that come in this order. -/
def outcomes (settings : TransmitterSettings) : List Posted → List (Except Error Received)
  | [] => []
  | p :: rest => outcome settings p rest :: outcomes settings rest

/-- What is held of a message after `done`, the last one in front, while `rest` is to come. -/
def awaited (done rest : List Posted) (key : FragmentKey) : List (Nat × Fragment) :=
  if rest.countP key.owns = 0 then []
  else (done.filter key.owns).map (·.sentence.numberedFragment)

variable {settings : TransmitterSettings} {p : Posted} {done rest : List Posted}
  {key : FragmentKey} {r : Receiver} {now : Moment} {times : Moment → Prop}

theorem awaited_of_not_owns (h : key.owns p = false) :
    awaited (p :: done) rest key = awaited done (p :: rest) key := by
  have hneg : ¬ key.owns p = true := by rw [h]; decide
  rw [awaited, awaited, List.countP_cons_of_neg hneg, List.filter_cons_of_neg hneg]

/-- What a receiver that reassembles knows after `done`, while `rest` is to come. -/
structure Waits (r : Receiver) (times : Moment → Prop) (done rest : List Posted) : Prop where
  reassembles : r.settings.enableReassembly = true
  current : r.table.Current times
  spans : FragmentTable.Spans r.table.maxAge times
  held : ∀ key, r.table.held key = awaited done rest key

/-- What becomes of a line that is a sentence is what becomes of its fragment. -/
theorem Receiver.decode_of_parse {line : String} {s : Sentence} (r : Receiver) (now : Moment)
    (h : Sentence.parse line r.settings.validateChecksum = .ok s) :
    ∃ statistics,
    r.decode now line = ({ r with table := (r.collect now s).1, statistics },
      (r.collect now s).2.bind (Receiver.open? s)) := by
  rw [Receiver.decode, h]
  dsimp only
  cases (r.collect now s).2.bind (Receiver.open? s) with
  | error e => exact ⟨r.statistics, rfl⟩
  | ok received => exact ⟨_, rfl⟩

/-- A sentence that was rendered is read back, and what becomes of it is what becomes of its
fragment. -/
theorem Receiver.decode_render {s : Sentence} (h : s.WellFormed) (r : Receiver) (now : Moment) :
    ∃ statistics,
    r.decode now s.render = ({ r with table := (r.collect now s).1, statistics },
      (r.collect now s).2.bind (Receiver.open? s)) := by
  have hcollect : r.collect now { s with checksum := some (Sentence.checksumOf s.body) } =
      r.collect now s := rfl
  have hopen : Receiver.open? { s with checksum := some (Sentence.checksumOf s.body) } =
      Receiver.open? s := rfl
  have hdecode := r.decode_of_parse now (h.parse_render r.settings.validateChecksum)
  rwa [hcollect, hopen] at hdecode

/-- The sentences of the message of one of them. -/
theorem Consistent.split (h : Consistent settings (done ++ p :: rest)) : ∃ fragments,
    ((done.filter (·.index = p.index)).map (·.sentence.numberedFragment) ++
      p.sentence.numberedFragment ::
        (rest.filter (·.index = p.index)).map (·.sentence.numberedFragment)).Perm
          (numbered fragments) ∧
      fragments.length = p.sentence.fragmentCount.toNat ∧
      Receiver.open? p.sentence (FragmentTable.join fragments) = .ok (receipt settings p.message) := by
  obtain ⟨fragments, hperm, hrest⟩ := h.whole p (List.mem_append_right _ List.mem_cons_self)
  rw [List.filter_append,
    List.filter_cons_of_pos (p := fun q : Posted => q.index = p.index) (decide_eq_true rfl),
    List.map_append, List.map_cons] at hperm
  exact ⟨fragments, hperm, hrest⟩

/-- A sentence that is the whole message. -/
theorem Consistent.whole_of_single (h : Consistent settings (done ++ p :: rest))
    (hs : p.sentence.isMultipart = false) :
    rest.countP (·.index = p.index) = 0 ∧
      Receiver.open? p.sentence p.sentence.fragment = .ok (receipt settings p.message) := by
  have hcount : p.sentence.fragmentCount.toNat ≤ 1 :=
    Nat.not_lt.mp fun hmany => by
      rw [Sentence.isMultipart_iff.mpr hmany] at hs
      cases hs
  obtain ⟨fragments, hperm, hlen, hopen⟩ := h.split
  have hlength := hperm.length_eq
  rw [List.length_append, List.length_cons, List.length_map, List.length_map, length_numbered,
    hlen] at hlength
  have hdone : done.filter (·.index = p.index) = [] := List.length_eq_zero_iff.mp (by omega)
  have hrest : rest.filter (·.index = p.index) = [] := List.length_eq_zero_iff.mp (by omega)
  rw [hdone, hrest] at hperm
  obtain ⟨fragment, rfl⟩ : ∃ fragment, fragments = [fragment] :=
    List.length_eq_one_iff.mp (by rw [hdone, hrest] at hlength; omega)
  have hfragment : p.sentence.fragment = fragment :=
    congrArg Prod.snd (List.singleton_inj.mp (List.perm_singleton.mp hperm))
  rw [List.countP_eq_length_filter, hrest]
  refine ⟨rfl, ?_⟩
  rw [hfragment, ← hopen, FragmentTable.join_singleton]

theorem Receiver.collect_of_single {s : Sentence} (hs : s.isMultipart = false) :
    r.collect now s = (r.table, .ok s.fragment) := by
  rw [Receiver.collect, hs]
  rfl

/-- The table after the fragment of a sentence was put in. -/
def Receiver.added (r : Receiver) (now : Moment) (s : Sentence) : FragmentTable :=
  (r.table.add now (keyOf s) s.fragmentNumber.toNat s.fragment).1

theorem Receiver.collect_of_multipart {s : Sentence} (hs : s.isMultipart = true)
    (hr : r.settings.enableReassembly = true) : r.collect now s =
      match (r.added now s).take? (keyOf s) with
      | some (whole, table) => (table, .ok whole)
      | none =>
        (r.added now s, .error (.incomplete ((r.added now s).received (keyOf s)) (keyOf s).total)) := by
  rw [Receiver.added, ← FragmentTable.answer_add, Receiver.collect, hs, hr]
  rfl

/-- A sentence that is the whole message leaves the others waiting. -/
theorem Waits.decode_of_single (h : Waits r times done (p :: rest))
    (hc : Consistent settings (done ++ p :: rest)) (hs : p.sentence.isMultipart = false) :
    ∃ r', r.decode now p.sentence.render = (r', outcome settings p rest) ∧
      Waits r' times (p :: done) rest := by
  obtain ⟨hmissing, hopen⟩ := hc.whole_of_single hs
  obtain ⟨statistics, hdecode⟩ := Receiver.decode_render
    (hc.wellFormed p (List.mem_append_right _ List.mem_cons_self)) r now
  rw [Receiver.collect_of_single hs] at hdecode
  refine ⟨_, hdecode.trans (congrArg (Prod.mk _) ?_), h.reassembles, h.current, h.spans,
    fun key => ?_⟩
  · rw [outcome, if_pos hmissing]
    exact hopen
  · rw [awaited_of_not_owns (by rw [FragmentKey.owns, hs]; rfl)]
    exact h.held key

theorem Consistent.filter_owns (hc : Consistent settings (done ++ p :: rest))
    (hs : p.sentence.isMultipart = true) {qs : List Posted} (hq : qs ⊆ done ++ p :: rest) :
    qs.filter (Receiver.keyOf p.sentence).owns = qs.filter (·.index = p.index) :=
  List.filter_congr fun q hm => by
    have hmem : p ∈ done ++ p :: rest := List.mem_append_right _ List.mem_cons_self
    rw [Bool.eq_iff_iff, decide_eq_true_iff]
    exact hc.owns p hmem hs q (hq hm)

theorem Consistent.countP_owns (hc : Consistent settings (done ++ p :: rest))
    (hs : p.sentence.isMultipart = true) :
    rest.countP (Receiver.keyOf p.sentence).owns = rest.countP (·.index = p.index) := by
  have hfilter := hc.filter_owns hs fun q (hq : q ∈ rest) =>
    List.mem_append_right done (List.mem_cons_of_mem p hq)
  rw [List.countP_eq_length_filter, hfilter, ← List.countP_eq_length_filter]

/-- The fragment of a sentence is put in front of those of its message that have come. -/
theorem Waits.adds (h : Waits r times done (p :: rest))
    (hc : Consistent settings (done ++ p :: rest)) (hn : times now)
    (hs : p.sentence.isMultipart = true) :
    FragmentTable.Adds r.table (r.added now p.sentence) times (Receiver.keyOf p.sentence)
      (p.sentence.numberedFragment ::
        (done.filter (·.index = p.index)).map (·.sentence.numberedFragment)) := by
  obtain ⟨fragments, hperm, hlen, -⟩ := hc.split
  obtain ⟨hpos, hle⟩ := bounds_of_mem_numbered
    (hperm.mem_iff.mp (List.mem_append_right _ List.mem_cons_self))
  have hself : (Receiver.keyOf p.sentence).owns p = true := FragmentKey.owns_iff.mpr ⟨hs, rfl⟩
  have hheld : r.table.held (Receiver.keyOf p.sentence) =
      (done.filter (·.index = p.index)).map (·.sentence.numberedFragment) := by
    rw [h.held, awaited, List.countP_cons_of_pos hself, if_neg (Nat.succ_ne_zero _),
      hc.filter_owns hs (List.subset_append_left _ _)]
  rw [hlen] at hle
  rw [← filter_ne_of_perm hperm, ← hheld]
  exact h.current.add h.spans hn hpos hle

/-- The other messages: neither the table nor what is expected of it changes. -/
theorem Waits.held_added_ne (h : Waits r times done (p :: rest))
    (hc : Consistent settings (done ++ p :: rest)) (hn : times now)
    (hs : p.sentence.isMultipart = true) (hne : key ≠ Receiver.keyOf p.sentence) :
    (r.added now p.sentence).held key = awaited (p :: done) rest key := by
  have howns : key.owns p = false :=
    eq_false_of_ne_true fun ho => hne (FragmentKey.owns_iff.mp ho).2.symm
  rw [awaited_of_not_owns howns, (h.adds hc hn hs).held_ne key hne, h.held key]

/-- The last sentence of several completes its message, which is then forgotten. -/
theorem Waits.decode_of_last (h : Waits r times done (p :: rest))
    (hc : Consistent settings (done ++ p :: rest)) (hn : times now)
    (hs : p.sentence.isMultipart = true) (hmissing : rest.countP (·.index = p.index) = 0) :
    ∃ r', r.decode now p.sentence.render = (r', outcome settings p rest) ∧
      Waits r' times (p :: done) rest := by
  have hadds := h.adds hc hn hs
  obtain ⟨fragments, hperm, hlen, hopen⟩ := hc.split
  have hnil : rest.filter (·.index = p.index) = [] := by
    rwa [← List.length_eq_zero_iff, ← List.countP_eq_length_filter]
  rw [hnil] at hperm
  have htotal : fragments.length = (Receiver.keyOf p.sentence).total := hlen
  have htake : (r.added now p.sentence).take? (Receiver.keyOf p.sentence) =
      some (FragmentTable.join fragments,
        (r.added now p.sentence).erase (Receiver.keyOf p.sentence)) := by
    apply FragmentTable.take?_of_complete
    · exact Nat.lt_of_succ_lt (Sentence.isMultipart_iff.mp hs)
    · rw [hadds.held_self, ← htotal]
      exact complete?_of_last hperm
  obtain ⟨statistics, hdecode⟩ := Receiver.decode_render
    (hc.wellFormed p (List.mem_append_right _ List.mem_cons_self)) r now
  rw [Receiver.collect_of_multipart hs h.reassembles, htake] at hdecode
  refine ⟨_, hdecode.trans (congrArg (Prod.mk _) ?_), h.reassembles, hadds.current.erase,
    hadds.maxAge ▸ h.spans, fun key => ?_⟩
  · rw [outcome, if_pos hmissing]
    exact hopen
  · by_cases hkey : key = Receiver.keyOf p.sentence
    · rw [hkey, awaited, if_pos ((hc.countP_owns hs).trans hmissing), FragmentTable.held,
        FragmentTable.get?_erase_self]
      rfl
    · rw [← h.held_added_ne hc hn hs hkey, FragmentTable.held, FragmentTable.get?_erase_ne hkey]
      rfl

/-- A sentence of several that is not the last one is kept. -/
theorem Waits.decode_of_not_last (h : Waits r times done (p :: rest))
    (hc : Consistent settings (done ++ p :: rest)) (hn : times now)
    (hs : p.sentence.isMultipart = true) (hmissing : rest.countP (·.index = p.index) ≠ 0) :
    ∃ r', r.decode now p.sentence.render = (r', outcome settings p rest) ∧
      Waits r' times (p :: done) rest := by
  have hadds := h.adds hc hn hs
  obtain ⟨fragments, hperm, hlen, -⟩ := hc.split
  have htotal : fragments.length = (Receiver.keyOf p.sentence).total := hlen
  have htake : (r.added now p.sentence).take? (Receiver.keyOf p.sentence) = none := by
    apply FragmentTable.take?_of_incomplete
    rw [hadds.held_self, ← htotal]
    refine complete?_of_not_last hperm fun hnil => hmissing ?_
    rw [List.countP_eq_length_filter, List.map_eq_nil_iff.mp hnil]
    rfl
  have hreceived : (done.filter (·.index = p.index)).length + 1 =
      p.sentence.fragmentCount.toNat - rest.countP (·.index = p.index) := by
    have hlength := hperm.length_eq
    simp only [List.length_append, List.length_cons, List.length_map, length_numbered, hlen,
      ← List.countP_eq_length_filter] at hlength ⊢
    omega
  obtain ⟨statistics, hdecode⟩ := Receiver.decode_render
    (hc.wellFormed p (List.mem_append_right _ List.mem_cons_self)) r now
  rw [Receiver.collect_of_multipart hs h.reassembles, htake, FragmentTable.received_eq,
    hadds.held_self, List.length_cons, List.length_map, hreceived] at hdecode
  refine ⟨_, hdecode.trans (congrArg (Prod.mk _) ?_), h.reassembles, hadds.current,
    hadds.maxAge ▸ h.spans, fun key => ?_⟩
  · rw [outcome, if_neg hmissing]
    rfl
  · by_cases hkey : key = Receiver.keyOf p.sentence
    · have hself : (Receiver.keyOf p.sentence).owns p = true := FragmentKey.owns_iff.mpr ⟨hs, rfl⟩
      rw [hkey, awaited, if_neg (hc.countP_owns hs ▸ hmissing), List.filter_cons_of_pos hself,
        hc.filter_owns hs (List.subset_append_left _ _)]
      exact hadds.held_self
    · exact h.held_added_ne hc hn hs hkey

/-- A sentence that comes tells the receiver what is expected of it. -/
theorem Waits.decode (h : Waits r times done (p :: rest))
    (hc : Consistent settings (done ++ p :: rest)) (hn : times now) :
    ∃ r', r.decode now p.sentence.render = (r', outcome settings p rest) ∧
      Waits r' times (p :: done) rest := by
  cases hs : p.sentence.isMultipart with
  | false => exact h.decode_of_single hc hs
  | true =>
    by_cases hmissing : rest.countP (·.index = p.index) = 0
    · exact h.decode_of_last hc hn hs hmissing
    · exact h.decode_of_not_last hc hn hs hmissing

/-- Sentences that come tell the receiver what is expected of them. -/
theorem Waits.decodeAll {arrivals : List (Moment × Posted)}
    (h : Waits r times done (arrivals.map Prod.snd))
    (hc : Consistent settings (done ++ arrivals.map Prod.snd)) (hn : ∀ a ∈ arrivals, times a.1) :
    ∃ r' done', r.decodeAll (arrivals.map fun a => (a.1, a.2.sentence.render)) =
      (r', outcomes settings (arrivals.map Prod.snd)) ∧ Waits r' times done' [] := by
  induction arrivals generalizing r done with
  | nil => exact ⟨r, done, rfl, h⟩
  | cons a arrivals ih =>
    obtain ⟨r₁, hfirst, hwaits⟩ := h.decode hc (hn a List.mem_cons_self)
    obtain ⟨r₂, done', hrest, hend⟩ := ih hwaits (hc.perm List.perm_middle) fun b hb =>
      hn b (List.mem_cons_of_mem a hb)
    refine ⟨r₂, done', ?_, hend⟩
    rw [List.map_cons, Receiver.decodeAll, hfirst]
    simp only [hrest]
    rfl

/-- A receiver that has just started waits for all sentences. -/
theorem Waits.start {settings : ReceiverSettings} (hr : settings.enableReassembly = true)
    (hs : FragmentTable.Spans settings.maxReassemblyAge times) (all : List Posted) :
    Waits (Receiver.start settings) times [] all where
  reassembles := hr
  current :=
    { nonempty := fun _ he => nomatch he
      seen := fun _ he => nomatch he }
  spans := hs
  held key := by
    rw [awaited]
    split <;> rfl

/-! ## Each message is received once -/

/-- The sentences after which no other one of their message comes. -/
def lasts : List Posted → List Posted
  | [] => []
  | p :: rest => if rest.countP (·.index = p.index) = 0 then p :: lasts rest else lasts rest

theorem filterMap_outcomes (all : List Posted) : (outcomes settings all).filterMap Except.toOption =
    (lasts all).map fun p => receipt settings p.message := by
  induction all with
  | nil => rfl
  | cons p rest ih =>
    rw [outcomes, lasts, outcome]
    split
    · rw [List.map_cons, ← ih]
      rfl
    · exact ih

theorem subset_of_lasts (all : List Posted) : lasts all ⊆ all := by
  induction all with
  | nil => exact fun _ h => h
  | cons p rest ih =>
    rw [lasts]
    split
    · exact List.cons_subset_cons p ih
    · exact List.subset_cons_of_subset p ih

theorem exists_last (all : List Posted) : ∀ q ∈ all, ∃ p ∈ lasts all, p.index = q.index := by
  induction all with
  | nil => exact fun _ h => nomatch h
  | cons p rest ih =>
    rw [lasts]
    split
    case isTrue =>
      refine List.forall_mem_cons.mpr ⟨⟨p, List.mem_cons_self, rfl⟩, fun q hq => ?_⟩
      exact (ih q hq).imp fun _ h => ⟨List.mem_cons_of_mem p h.1, h.2⟩
    case isFalse hmore =>
      refine List.forall_mem_cons.mpr ⟨?_, ih⟩
      obtain ⟨q, hq, hindex⟩ := List.countP_pos_iff.mp (Nat.pos_of_ne_zero hmore)
      obtain ⟨p', hp', hindex'⟩ := ih q hq
      exact ⟨p', hp', hindex'.trans (of_decide_eq_true hindex)⟩

theorem nodup_lasts (all : List Posted) : ((lasts all).map Posted.index).Nodup := by
  induction all with
  | nil => exact List.nodup_nil
  | cons p rest ih =>
    rw [lasts]
    split
    case isTrue hlast =>
      refine List.nodup_cons.mpr ⟨fun hmem => ?_, ih⟩
      obtain ⟨q, hq, hindex⟩ := List.mem_map.mp hmem
      exact List.countP_eq_zero.mp hlast q (subset_of_lasts rest hq) (decide_eq_true hindex)
    case isFalse => exact ih

theorem nodup_of_map {α β : Type} {f : α → β} {xs : List α} (h : (xs.map f).Nodup) : xs.Nodup := by
  rw [List.Nodup, List.pairwise_map] at h
  exact h.imp fun hne he => hne (congrArg f he)

variable {t : Transmitter} {ms : List Message} {groups : List (List Sentence)} {first : Nat}

theorem mem_zipIdx_of_mem_posted (h : p ∈ posted 0 ms groups) :
    (p.message, p.index) ∈ ms.zipIdx := by
  obtain ⟨i, -, hindex, hm, -⟩ := exists_of_mem_posted h
  rwa [List.mk_mem_zipIdx_iff_getElem?, hindex, Nat.zero_add]

theorem Transmitter.Sent.exists_posted (h : Sent settings ms groups) (first : Nat) :
    ∀ x ∈ ms.zipIdx first, ∃ p ∈ posted first ms groups, (p.message, p.index) = x := by
  induction h generalizing first with
  | nil => exact fun _ hx => nomatch hx
  | @cons id m ms ss groups hspread _ _ ih =>
    rw [List.zipIdx_cons, posted]
    refine List.forall_mem_cons.mpr ⟨?_, fun x hx => ?_⟩
    · obtain ⟨s, hs⟩ := List.exists_mem_of_ne_nil ss hspread.ne_nil
      exact ⟨⟨first, m, s⟩, List.mem_append_left _ (List.mem_map_of_mem hs), rfl⟩
    · obtain ⟨p, hp, hx⟩ := ih (first + 1) x hx
      exact ⟨p, List.mem_append_right _ hp, hx⟩

/-- Every message has a last sentence, in whatever order they come. -/
theorem Transmitter.Sent.perm_lasts (h : Sent settings ms groups) {all : List Posted}
    (hp : all.Perm (posted 0 ms groups)) :
    ((lasts all).map Posted.message).Perm ms := by
  have hplaces : ((lasts all).map fun p => (p.message, p.index)).Perm ms.zipIdx := by
    -- In neither list does a place occur twice.
    have hlasts : ((lasts all).map fun p => (p.message, p.index)).Nodup := by
      refine nodup_of_map (f := Prod.snd) ?_
      rw [List.map_map]
      exact nodup_lasts all
    have hzip : ms.zipIdx.Nodup := by
      refine nodup_of_map (f := Prod.snd) ?_
      rw [List.zipIdx_map_snd]
      exact List.nodup_range'
    refine (List.perm_ext_iff_of_nodup hlasts hzip).mpr fun x => ⟨fun hx => ?_, fun hx => ?_⟩
    · obtain ⟨p, hmem, rfl⟩ := List.mem_map.mp hx
      exact mem_zipIdx_of_mem_posted (hp.mem_iff.mp (subset_of_lasts all hmem))
    · obtain ⟨q, hq, rfl⟩ := h.exists_posted 0 x hx
      obtain ⟨p, hmem, hindex⟩ := exists_last all q (hp.mem_iff.mpr hq)
      have hp := mem_zipIdx_of_mem_posted (hp.mem_iff.mp (subset_of_lasts all hmem))
      rw [hindex, List.mk_mem_zipIdx_iff_getElem?] at hp
      rw [List.mk_mem_zipIdx_iff_getElem?] at hx
      refine List.mem_map.mpr ⟨p, hmem, ?_⟩
      rw [hindex, Option.some.inj (hp.symm.trans hx)]
  have hmessages := hplaces.map Prod.fst
  rwa [List.map_map, List.zipIdx_map_fst] at hmessages

/-- Messages that a transmitter has sent, at most ten of them in several sentences, and whose
sentences come to a receiver in any order within the time that it waits: each message is received
with its last sentence, the other sentences are incomplete, and nothing is left to wait for. -/
theorem Receiver.decodeAll_of_perm (settings : ReceiverSettings)
    (arrivals : List (Moment × Posted)) (hr : t.settings.sequenceId = none)
    (hsent : t.encodeAll ms = .ok groups) (hten : splitCount groups ≤ 10)
    (hreassemble : settings.enableReassembly = true)
    (hperm : (arrivals.map Prod.snd).Perm (posted 0 ms groups))
    (hclock : ∀ a ∈ arrivals, ∀ b ∈ arrivals,
      a.1.since b.1 ≤ Moment.nanosecondsPerSecond * (settings.maxReassemblyAge : Int)) :
    let run := (Receiver.start settings).decodeAll
      (arrivals.map fun a => (a.1, a.2.sentence.render))
    run.2 = outcomes t.settings (arrivals.map Prod.snd) ∧
      (run.2.filterMap Except.toOption).Perm (ms.map (receipt t.settings)) ∧
      run.1.table.entries = [] ∧
      ∀ m ∈ ms, m.encode.bind Message.decode = .ok m.normalised := by
  have hs := sent_of_encodeAll hr hsent hten
  have hspans : FragmentTable.Spans settings.maxReassemblyAge fun now => ∃ a ∈ arrivals, a.1 = now := by
    rintro _ _ ⟨a, ha, rfl⟩ ⟨b, hb, rfl⟩
    exact hclock a ha b hb
  obtain ⟨r', done', hrun, hend⟩ := (Waits.start hreassemble hspans _).decodeAll
    ((hs.consistent 0).perm hperm.symm) fun a ha => ⟨a, ha, rfl⟩
  intro run
  have hrun : run = (r', outcomes t.settings (arrivals.map Prod.snd)) := hrun
  have hreceipts := (hs.perm_lasts hperm).map (receipt t.settings)
  rw [List.map_map] at hreceipts
  rw [hrun]
  refine ⟨rfl, ?_, hend.current.entries_eq_nil hend.held, hs.encode_bind_decode⟩
  rw [filterMap_outcomes]
  exact hreceipts

/-- A transmitter with short sentences. -/
def shortSentences : Transmitter where
  settings := { maxFragmentLength := 12, channel := 'B', ownVessel := true }

/-- Two messages that take two short sentences each, and a question between them. -/
def conversation : List Message :=
  [.binaryAcknowledge ⟨{ mmsi := 2655651 }, [⟨230629000, 3⟩, ⟨265547250, 1⟩]⟩,
    .utcInquiry { header := { mmsi := 230629000 }, destination := 2655651 },
    .safetyAcknowledge ⟨{ mmsi := 265547250 }, [⟨2655651, 0⟩, ⟨230629000, 2⟩]⟩]

/-- The last sentence of each message comes in front, and the clock goes by their numbers. -/
def lastsInFront (all : List Posted) : List (Moment × Posted) :=
  (all.filter (·.sentence.isLast) ++ all.filter (!·.sentence.isLast)).map fun p =>
    (.ofNanoseconds p.sentence.fragmentNumber.toNat, p)

theorem Receiver.decodeAll_of_perm_lastsInFront : ∃ groups,
    shortSentences.encodeAll conversation = .ok groups ∧ groups.map List.length = [2, 1, 2] ∧
      let run := (Receiver.start {}).decodeAll
        ((lastsInFront (posted 0 conversation groups)).map fun a => (a.1, a.2.sentence.render))
      run.2.map Except.isOk = [false, true, false, true, true] ∧ run.1.table.entries = [] := by
  have hvalue : (shortSentences.encodeAll conversation).toOption.map (fun groups =>
      (groups.map List.length, (outcomes shortSentences.settings
        ((lastsInFront (posted 0 conversation groups)).map Prod.snd)).map Except.isOk)) =
      some ([2, 1, 2], [false, true, false, true, true]) := by
    decide +kernel
  cases h : shortSentences.encodeAll conversation with
  | error e =>
    rw [h] at hvalue
    cases hvalue
  | ok groups =>
    rw [h] at hvalue
    obtain ⟨hlengths, hoks⟩ := Prod.mk.inj (Option.some.inj hvalue)
    have hten : splitCount groups ≤ 10 := by
      have hlength : groups.length = 3 := by
        rw [← List.length_map, hlengths]
        rfl
      exact Nat.le_trans List.countP_le_length (by omega)
    obtain ⟨hresults, -, htable, -⟩ := Receiver.decodeAll_of_perm {}
      (lastsInFront (posted 0 conversation groups)) rfl h hten rfl
      (by
        rw [lastsInFront, List.map_map]
        exact (List.Perm.of_eq (List.map_id _)).trans (List.filter_append_perm _ _))
      (by
        intro a ha b hb
        obtain ⟨p, -, rfl⟩ := List.mem_map.mp ha
        obtain ⟨q, -, rfl⟩ := List.mem_map.mp hb
        have hp := p.sentence.fragmentNumber.toNat_lt
        have hage : Moment.nanosecondsPerSecond * ((60 : Nat) : Int) = 60000000000 := by decide
        rw [Moment.since_ofNanoseconds, hage]
        omega)
    exact ⟨groups, rfl, hlengths, by rw [hresults]; exact hoks, htable⟩

end Transponder

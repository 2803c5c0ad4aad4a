import Transponder.Proofs.Message.Decoding
import Transponder.Proofs.Sentence.Framing
import Transponder.Proofs.Sentence.Unfinished
import Transponder.Proofs.Station.Feed

/-!
# What holds of a receiver at all times

A receiver is given calls, one after the other. What it holds of a message after any of them is a
part of it, never the whole (`Sound`): a line either leaves the table as it was, or adds one fragment
of several and takes the message if it is complete (`decode_cases`). Only such a fragment is answered
with how many of its message there are (`Settled`, `incomplete_cases`).
-/

namespace Transponder

/-! ## Errors that count no fragments -/

/-- Whatever becomes of it, it is not that a message is incomplete. -/
def Settled {α : Type} (x : Except Error α) : Prop :=
  ∀ received total, x ≠ .error (.incomplete received total)

namespace Settled

variable {α β : Type} {x : Except Error α} {f : α → Except Error β}

theorem ok (a : α) : Settled (.ok a : Except Error α) :=
  fun _ _ h => nomatch h

theorem malformed (cause : Malformation) : Settled (.error (.malformed cause) : Except Error α) :=
  fun _ _ h => nomatch h

theorem bind (hx : Settled x) (hf : ∀ a, Settled (f a)) : Settled (x >>= f) := by
  intro received total h
  cases x with
  | error e =>
    obtain rfl : e = .incomplete received total := Except.error.inj h
    exact hx received total rfl
  | ok a => exact hf a received total h

theorem ofValue (x : Except ValueError α) : Settled (Sentence.valueOf x) := by
  cases x with
  | error e => exact malformed (.value e)
  | ok a => exact ok a

end Settled

namespace Sentence

open Settled

theorem settled_splitTagBlock (cs : List Char) : Settled (splitTagBlock cs) := by
  unfold splitTagBlock
  split
  · split
    · exact ok _
    · exact malformed _
  · exact ok _

theorem settled_readChecksum (field : List Char) : Settled (readChecksum field) := by
  unfold readChecksum
  dsimp only
  split
  · exact ok _
  · exact malformed _

theorem settled_splitChecksum (cs : List Char) : Settled (splitChecksum cs) := by
  unfold splitChecksum
  split
  · exact malformed _
  · split
    · split
      · exact (settled_readChecksum _).bind fun _ => ok _
      · exact ok _
    · exact malformed _

theorem settled_numericField (fields : List (List Char)) (index : Nat) (field : NumericField)
    (missing : UInt8) : Settled (numericField fields index field missing) := by
  unfold numericField
  split
  · exact ok _
  · split
    · exact ok _
    · exact malformed _

theorem settled_checkChecksum (body : List Char) (carried : Option UInt8) :
    Settled (checkChecksum body carried) := by
  unfold checkChecksum
  split
  · exact malformed _
  · split
    · exact ok _
    · exact fun _ _ h => nomatch h

theorem settled_ofBody (tagBlock : Option String) (checksum : Option UInt8) (body : List Char) :
    Settled (ofBody tagBlock checksum body) := by
  unfold ofBody
  refine (ofValue _).bind fun address => ?_
  refine (settled_numericField _ _ _ _).bind fun count => ?_
  refine (settled_numericField _ _ _ _).bind fun number => ?_
  dsimp only
  split
  case isTrue => exact malformed _
  case isFalse =>
    refine (ofValue _).bind fun channel => ?_
    split
    · exact malformed _
    · refine (settled_numericField _ _ _ _).bind fun fillBits => ?_
      split
      · exact malformed _
      · exact ok _

theorem settled_parse (line : String) (validate : Bool) : Settled (parse line validate) := by
  unfold parse
  refine (settled_splitTagBlock _).bind fun (tagBlock, sentence) => ?_
  refine (settled_splitChecksum _).bind fun (body, checksum) => ?_
  dsimp only
  split
  · exact (settled_checkChecksum body checksum).bind fun _ => settled_ofBody tagBlock checksum body
  · exact settled_ofBody tagBlock checksum body

/-- The number of a sentence is one that its message has. -/
theorem number_of_parse {s : Sentence} {line : String} {validate : Bool}
    (h : parse line validate = .ok s) :
    1 ≤ s.fragmentNumber.toNat ∧ s.fragmentNumber.toNat ≤ (Receiver.keyOf s).total :=
  ⟨UInt8.lt_iff_toNat_lt.mp (wellFormed_of_parse h).number_pos,
    UInt8.le_iff_toNat_le.mp (wellFormed_of_parse h).number_le⟩

end Sentence

theorem Message.settled_decode (b : Bits) : Settled (Message.decode b) := by
  intro received total h
  rcases Message.decode_cases b with ⟨_, m, -, -, hm⟩ | ⟨e, he, hcases⟩
  · rw [h] at hm
    cases hm
  · obtain rfl : Error.incomplete received total = e := Except.error.inj (h.symm.trans he)
    rcases hcases with ⟨-, hlayout⟩ | ⟨-, offset, width, htruncated, -⟩
    · cases hlayout
    · cases htruncated

namespace Receiver

theorem settled_open? (s : Sentence) (whole : Fragment) : Settled (open? s whole) :=
  (Message.settled_decode _).bind fun _ => .ok _

/-! ## One line -/

variable {r r' : Receiver} {now : Moment} {line : String} {s : Sentence}

/-- A line changes the table only if it is one sentence of several. -/
theorem decode_cases (r : Receiver) (now : Moment) (line : String) :
    Agrees (r.decode now line).1 r ∨
      ∃ s, Sentence.parse line r.settings.validateChecksum = .ok s ∧ s.isMultipart = true ∧
        r.settings.enableReassembly = true ∧
        (r.decode now line).1.table =
          (FragmentTable.Call.take (keyOf s)).apply (r.added now s) := by
  cases hparse : Sentence.parse line r.settings.validateChecksum with
  | error e => exact .inl (decode_of_apart (.inl ⟨e, hparse⟩))
  | ok s =>
    obtain ⟨statistics, hdecode⟩ := r.decode_of_parse now hparse
    rw [hdecode]
    cases hs : s.isMultipart with
    | false =>
      rw [collect_of_single hs]
      exact .inl ⟨rfl, rfl⟩
    | true =>
      cases hr : r.settings.enableReassembly with
      | false =>
        rw [collect_of_disabled hr]
        exact .inl ⟨rfl, rfl⟩
      | true => exact .inr ⟨s, rfl, hs, rfl, table_collect hs hr⟩

/-- What a receiver says of a message that is incomplete is what its table holds of it. -/
theorem incomplete_cases {received total : Nat}
    (h : (r.decode now line).2 = .error (.incomplete received total)) :
    ∃ s, Sentence.parse line r.settings.validateChecksum = .ok s ∧ s.isMultipart = true ∧
      (r.added now s).take? (keyOf s) = none ∧ (r.decode now line).1.table = r.added now s ∧
      received = (r.added now s).received (keyOf s) ∧ total = (keyOf s).total := by
  cases hparse : Sentence.parse line r.settings.validateChecksum with
  | error e =>
    rw [decode_of_refused hparse] at h
    obtain rfl : e = .incomplete received total := Except.error.inj h
    exact absurd hparse (Sentence.settled_parse line _ received total)
  | ok s =>
    obtain ⟨statistics, hdecode⟩ := r.decode_of_parse now hparse
    rw [hdecode] at h ⊢
    -- A payload that is there is opened, and that never tells of a message that is incomplete.
    have hcollect : ∀ whole, (r.collect now s).2 ≠ .ok whole := by
      intro whole hwhole
      rw [hwhole] at h
      exact settled_open? s whole received total h
    have hs : s.isMultipart = true := by
      by_contra hsingle
      rw [collect_of_single (Bool.eq_false_iff.mpr hsingle)] at hcollect
      exact hcollect _ rfl
    have hr : r.settings.enableReassembly = true := by
      by_contra hdisabled
      rw [collect_of_disabled (Bool.eq_false_iff.mpr hdisabled)] at hcollect
      exact hcollect _ rfl
    rw [collect_of_multipart hs hr] at h hcollect ⊢
    cases htake : (r.added now s).take? (keyOf s) with
    | some taken =>
      rw [htake] at hcollect
      exact absurd rfl (hcollect taken.1)
    | none =>
      rw [htake] at h
      obtain ⟨hreceived, htotal⟩ := Error.incomplete.inj (Except.error.inj h)
      exact ⟨s, rfl, hs, htake, rfl, hreceived.symm, htotal.symm⟩

/-! ## Many calls -/

/-- The calls of a receiver and of its table. A line may be decoded, with or without being counted,
alone or with others. -/
inductive Call where
  | decode (now : Moment) (line : String)
  | parse (now : Moment) (line : String)
  | parseAll (lines : List (Moment × String))
  | pending
  | evict (now : Moment)
  | clear

/-- The receiver after a call. To ask how many messages are waited for changes nothing. -/
def Call.apply (r : Receiver) : Call → Receiver
  | decode now line => (r.decode now line).1
  | parse now line => (r.parse now line).1
  | parseAll lines => (r.parseAll lines).1
  | pending => r
  | evict now => { r with table := r.table.evict now }
  | clear => r.clear

/-- The receiver after calls that come one after the other. -/
def after (r : Receiver) (calls : List Call) : Receiver :=
  calls.foldl Call.apply r

/-- A table that holds no whole message, and nothing at all if nothing is put together. -/
structure Sound (r : Receiver) : Prop where
  maxAge : r.table.maxAge = r.settings.maxReassemblyAge
  unfinished : r.table.Unfinished
  idle : r.settings.enableReassembly = false → r.table.entries = []

theorem Sound.start (settings : ReceiverSettings) : (start settings).Sound where
  maxAge := rfl
  unfinished := .of_entries_eq_nil rfl
  idle _ := rfl

theorem Sound.of_agrees (h : r.Sound) (ha : Agrees r' r) : r'.Sound where
  maxAge := by rw [ha.table, ha.settings, h.maxAge]
  unfinished := ha.table ▸ h.unfinished
  idle hr := ha.table ▸ h.idle (ha.settings ▸ hr)

theorem Sound.decode (h : r.Sound) (now : Moment) (line : String) :
    (r.decode now line).1.Sound := by
  rcases decode_cases r now line with hsame | ⟨s, hparse, hs, hr, htable⟩
  · exact h.of_agrees hsame
  · obtain ⟨hpos, hle⟩ := Sentence.number_of_parse hparse
    refine ⟨?_, ?_, fun hdisabled => ?_⟩
    · rw [htable, settings_decode, FragmentTable.maxAge_apply, ← h.maxAge]
      exact FragmentTable.maxAge_apply (.add now (keyOf s) s.fragmentNumber.toNat s.fragment)
    · rw [htable]
      exact h.unfinished.add_take (Sentence.isMultipart_iff.mp hs) hpos hle
    · rw [settings_decode, hr] at hdisabled
      cases hdisabled

theorem Sound.decodeAll (h : r.Sound) (lines : List (Moment × String)) :
    (r.decodeAll lines).1.Sound := by
  induction lines generalizing r with
  | nil => exact h
  | cons l lines ih => exact ih (h.decode l.1 l.2)

theorem Sound.apply (h : r.Sound) (c : Call) : (c.apply r).Sound :=
  match c with
  | .decode now line => h.decode now line
  | .parse now line => (h.decode now line).of_agrees (parse_eq r now line).2
  | .parseAll lines => (h.decodeAll lines).of_agrees (parseAll_eq r lines).2
  | .pending => h
  | .evict _ =>
    { maxAge := h.maxAge
      unfinished := h.unfinished.evict
      idle := fun hr => List.filter_eq_nil_iff.mpr fun _ he => nomatch h.idle hr ▸ he }
  | .clear =>
    { maxAge := h.maxAge
      unfinished := .of_entries_eq_nil rfl
      idle := fun _ => rfl }

theorem Sound.after (h : r.Sound) (calls : List Call) : (r.after calls).Sound := by
  induction calls generalizing r with
  | nil => exact h
  | cons c calls ih => exact ih (h.apply c)

theorem settings_apply (c : Call) : (c.apply r).settings = r.settings :=
  match c with
  | .decode .. => settings_decode
  | .parse now line => (parse_eq r now line).2.settings.trans settings_decode
  | .parseAll lines => (parseAll_eq r lines).2.settings.trans settings_decodeAll
  | .pending | .evict _ | .clear => rfl

theorem settings_after (calls : List Call) : (r.after calls).settings = r.settings := by
  induction calls generalizing r with
  | nil => rfl
  | cons c calls ih => exact ih.trans (settings_apply c)

/-- Of an incomplete message some fragments are there, and some are not. -/
theorem Sound.incomplete (h : r.Sound) {received total : Nat}
    (hdecode : (r.decode now line).2 = .error (.incomplete received total)) :
    1 ≤ received ∧ received < total ∧
      ∃ s, Sentence.parse line r.settings.validateChecksum = .ok s ∧ total = (keyOf s).total ∧
        received = (r.decode now line).1.table.received (keyOf s) := by
  obtain ⟨s, hparse, hs, htake, htable, rfl, rfl⟩ := incomplete_cases hdecode
  obtain ⟨hpos, hle⟩ := Sentence.number_of_parse hparse
  have hseveral : 2 ≤ (keyOf s).total := Sentence.isMultipart_iff.mp hs
  obtain ⟨hsome, hmissing⟩ := h.unfinished.received_add hseveral hpos hle htake
  exact ⟨hsome, hmissing, s, hparse, rfl, by rw [htable]⟩

/-- Whatever calls a receiver has been given, every message in its table has several numbers, some
fragments of them, and not all. A sentence that comes next has a number that its message has; if it
is answered that its message is incomplete, the table holds as many fragments as the answer says,
some but not all; and nothing changes about the other messages but that those are given up that are
too old. -/
theorem unfinished_after (settings : ReceiverSettings) (calls : List Call) :
    let r := (start settings).after calls
    r.table.Unfinished ∧ (settings.enableReassembly = false → r.table.entries = []) ∧
      ∀ now line,
        (∀ s, Sentence.parse line settings.validateChecksum = .ok s →
          1 ≤ s.fragmentNumber.toNat ∧ s.fragmentNumber.toNat ≤ (keyOf s).total) ∧
        (∀ received total, (r.decode now line).2 = .error (.incomplete received total) →
          1 ≤ received ∧ received < total ∧
            ∃ s, Sentence.parse line settings.validateChecksum = .ok s ∧ total = (keyOf s).total ∧
              received = (r.decode now line).1.table.received (keyOf s)) ∧
        ((r.decode now line).1.table = r.table ∨
          ∃ s, Sentence.parse line settings.validateChecksum = .ok s ∧
            ∀ key ≠ keyOf s, (r.decode now line).1.table.get? key =
              (r.table.get? key).filter fun held =>
                now.since held.lastSeen ≤
                  Moment.nanosecondsPerSecond * (settings.maxReassemblyAge : Int)) := by
  intro r
  have h : r.Sound := (Sound.start settings).after calls
  have hsettings : r.settings = settings := settings_after calls
  refine ⟨h.unfinished, fun hdisabled => h.idle (hsettings ▸ hdisabled), fun now line =>
    ⟨fun s => Sentence.number_of_parse, fun received total => hsettings ▸ h.incomplete, ?_⟩⟩
  rcases decode_cases r now line with hsame | ⟨s, hparse, -, -, htable⟩
  · exact .inl hsame.table
  · obtain ⟨hpos, hle⟩ := Sentence.number_of_parse hparse
    refine .inr ⟨s, hsettings ▸ hparse, fun key hne => ?_⟩
    rw [htable, ← hsettings, ← h.maxAge]
    exact h.unfinished.get?_add_take hpos hle hne

/-- The payloads of two sentences make no message; then the first one comes again. -/
def senselessCalls : List Call :=
  [.decode (.ofNanoseconds 0) "!AIVDM,2,1,7,A,0,0",
    .parse (.ofNanoseconds 1) "!AIVDM,2,2,7,A,0,0", .pending,
    .decode (.ofNanoseconds 2) "!AIVDM,2,1,7,A,0,0"]

/-- What makes no message is not left in the table, and the sentence that came again starts anew. -/
theorem unfinished_after_senselessCalls :
    let r := (start { validateChecksum := false }).after senselessCalls
    r.table.Unfinished ∧ r.table.pending = 1 ∧
      (r.decode (.ofNanoseconds 3) "!AIVDM,3,2,7,A,0,0").2 = .error (.incomplete 1 3) ∧ 1 < 3 ∧
      ((start ⟨false, false, 60⟩).after senselessCalls).table.entries = [] := by
  intro r
  obtain ⟨hunfinished, -, hnext⟩ := unfinished_after { validateChecksum := false } senselessCalls
  have hincomplete :
      (r.decode (.ofNanoseconds 3) "!AIVDM,3,2,7,A,0,0").2 = .error (.incomplete 1 3) := by
    rfl
  exact ⟨hunfinished, by decide +kernel, hincomplete, ((hnext _ _).2.1 1 3 hincomplete).2.1,
    (unfinished_after ⟨false, false, 60⟩ senselessCalls).2.1 rfl⟩

end Receiver

end Transponder

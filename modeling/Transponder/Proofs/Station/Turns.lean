import Transponder.Proofs.Station.Posting

/-!
# Sequence ids take turns

A transmitter is asked for messages one after the other, as sentences or as their lines. A call that
fails or gives one sentence leaves it as it is, and one that gives several takes an id
(`perform_cases`). Hence after `k` calls that gave several sentences it is `atTurn settings k`,
whatever else it was asked for (`performAll_atTurn`, `hasId_of_performAll`), and the other calls
might as well not have been made (`performAll_insert`).
-/

namespace Transponder.Transmitter

variable {settings : TransmitterSettings} {t t' : Transmitter} {m : Message} {e : Error} {k : Nat}

/-! ## Turns -/

/-- The id of the sentences of a message if `k` messages in several sentences came before it. -/
def turn (settings : TransmitterSettings) (k : Nat) : Nat :=
  match settings.sequenceId with
  | some id => id.toNat
  | none => k % 10

/-- A transmitter that has sent `k` messages in several sentences. -/
def atTurn (settings : TransmitterSettings) (k : Nat) : Transmitter where
  settings
  nextSequenceId := if settings.sequenceId.isSome then 0 else k % 10

theorem atTurn_zero : atTurn settings 0 = { settings } := by
  rw [atTurn, Nat.zero_mod, ite_self]

theorem takeSequenceId_atTurn :
    (atTurn settings k).takeSequenceId = (turn settings k, atTurn settings (k + 1)) := by
  rw [takeSequenceId, turn, atTurn, atTurn]
  cases settings.sequenceId with
  | some id => rfl
  | none =>
    have hnext : (k % 10 + 1) % (maxSequenceId + 1) = (k + 1) % 10 := Nat.mod_add_mod k 10 1
    exact congrArg (fun next => (k % 10, Transmitter.mk settings next)) hnext

/-! ## One call -/

/-- Whether a message can be sent has nothing to do with the messages before it. -/
theorem encode_of_error (ht : t'.settings = t.settings) (h : (t.encode m).2 = .error e) :
    t'.encode m = (t', .error e) := by
  unfold encode at h ⊢
  rw [ht]
  dsimp only at h ⊢
  split at h
  next e' hprepared =>
    obtain rfl : e' = e := Except.error.inj h
    rfl
  next fillBits parts hprepared => split at h <;> cases h

/-- Takes a message, and gives the lines of its sentences. -/
def encodeLines (t : Transmitter) (m : Message) : Transmitter × Except Error (List String) :=
  let (t, result) := t.encode m
  (t, result.map fun ss => ss.map (·.render))

/-- What a transmitter is asked for. -/
inductive Call where
  | encode (m : Message)
  | encodeLines (m : Message)

/-- What a transmitter answers. -/
inductive Answer where
  | sentences (result : Except Error (List Sentence))
  | lines (result : Except Error (List String))

namespace Answer

/-- Whether a message was sent in several sentences. -/
def isSplit : Answer → Bool
  | sentences (.ok ss) => 1 < ss.length
  | lines (.ok ls) => 1 < ls.length
  | sentences (.error _) | lines (.error _) => false

/-- All sentences, or those in the lines, have this sequence id. -/
def HasId (id : String) : Answer → Prop
  | sentences result => ∀ ss, result = .ok ss → ∀ s ∈ ss, s.sequenceId = id
  | lines result => ∀ ls, result = .ok ls →
      ∀ line ∈ ls, ∃ s, Sentence.parse line true = .ok s ∧ s.sequenceId = id

end Answer

def Call.perform (t : Transmitter) : Call → Transmitter × Answer
  | encode m => (t.encode m).map id .sentences
  | encodeLines m => (t.encodeLines m).map id .lines

/-- The answers to calls, and the transmitter after them. -/
def performAll (t : Transmitter) : List Call → Transmitter × List Answer
  | [] => (t, [])
  | c :: calls =>
    let (t, answer) := c.perform t
    let (t, answers) := t.performAll calls
    (t, answer :: answers)

/-- The sentences in which a message is sent, as they are or as lines, have its sequence id. -/
theorem Spread.hasId {id : String} {ss : List Sentence} (h : Spread settings id m ss) :
    (Answer.sentences (.ok ss)).HasId id ∧ (Answer.lines (.ok (ss.map (·.render)))).HasId id := by
  constructor
  · intro ss' hss
    obtain rfl : ss = ss' := Except.ok.inj hss
    exact fun s => h.sequenceId
  · intro ls hls line hline
    obtain rfl : ss.map (·.render) = ls := Except.ok.inj hls
    obtain ⟨s, hs, rfl⟩ := List.mem_map.mp hline
    have hid : s.sequenceId = id := h.sequenceId hs
    exact ⟨_, (h.wellFormed hs).parse_render true, hid⟩

/-- A message cannot be sent, or is sent in one sentence, or is sent in several that take an id. -/
theorem encode_cases (t : Transmitter) (m : Message) :
    (∃ e, t.encode m = (t, .error e)) ∨ (∃ s, t.encode m = (t, .ok [s])) ∨
      ∃ ss, 1 < ss.length ∧ t.encode m = (t.takeSequenceId.2, .ok ss) ∧
        Spread t.settings (toString t.takeSequenceId.1) m ss := by
  cases h : t.encode m with
  | mk t' result =>
    cases result with
    | error e => exact .inl ⟨e, by rw [← h]; exact encode_of_error rfl (congrArg Prod.snd h)⟩
    | ok ss =>
      obtain ⟨hspread, rfl⟩ := encode_eq_ok h
      rcases Nat.lt_or_ge 1 ss.length with hmany | hone
      · rw [label, if_neg (Nat.not_le.mpr hmany)] at hspread ⊢
        exact .inr (.inr ⟨ss, hmany, rfl, hspread⟩)
      · obtain ⟨s, rfl⟩ : ∃ s, ss = [s] := List.length_eq_one_iff.mp
          (Nat.le_antisymm hone (List.length_pos_iff.mpr hspread.ne_nil))
        exact .inr (.inl ⟨s, rfl⟩)

theorem settings_encode (t : Transmitter) (m : Message) : (t.encode m).1.settings = t.settings := by
  rcases t.encode_cases m with ⟨e, h⟩ | ⟨s, h⟩ | ⟨ss, -, h, -⟩
  · rw [h]
  · rw [h]
  · rw [h]
    exact settings_takeSequenceId

/-- A call takes an id if and only if it gives several sentences. -/
theorem perform_cases (t : Transmitter) (c : Call) :
    ((c.perform t).2.isSplit = false ∧ (c.perform t).1 = t) ∨
      ((c.perform t).2.isSplit = true ∧ (c.perform t).1 = t.takeSequenceId.2 ∧
        (c.perform t).2.HasId (toString t.takeSequenceId.1)) := by
  cases c with
  | encode m =>
    rcases t.encode_cases m with ⟨e, h⟩ | ⟨s, h⟩ | ⟨ss, hmany, h, hspread⟩
    · exact .inl (by rw [Call.perform, h]; exact ⟨rfl, rfl⟩)
    · exact .inl (by rw [Call.perform, h]; exact ⟨rfl, rfl⟩)
    · rw [Call.perform, h]
      exact .inr ⟨decide_eq_true hmany, rfl, hspread.hasId.1⟩
  | encodeLines m =>
    rcases t.encode_cases m with ⟨e, h⟩ | ⟨s, h⟩ | ⟨ss, hmany, h, hspread⟩
    · exact .inl (by rw [Call.perform, encodeLines, h]; exact ⟨rfl, rfl⟩)
    · exact .inl (by rw [Call.perform, encodeLines, h]; exact ⟨rfl, rfl⟩)
    · rw [Call.perform, encodeLines, h]
      exact .inr ⟨decide_eq_true (by rwa [List.length_map]), rfl, hspread.hasId.2⟩

/-! ## Many calls -/

variable {c : Call} {calls xs ys : List Call}

theorem performAll_cons : t.performAll (c :: calls) =
    (((c.perform t).1.performAll calls).1,
      (c.perform t).2 :: ((c.perform t).1.performAll calls).2) :=
  rfl

theorem performAll_append : t.performAll (xs ++ ys) =
    (((t.performAll xs).1.performAll ys).1,
      (t.performAll xs).2 ++ ((t.performAll xs).1.performAll ys).2) := by
  induction xs generalizing t with
  | nil => rfl
  | cons c xs ih =>
    rw [List.cons_append, performAll_cons, performAll_cons, ih]
    rfl

/-- How many messages were sent in several sentences. -/
def splits (answers : List Answer) : Nat :=
  answers.countP (·.isSplit)

theorem splits_cons {answer : Answer} {answers : List Answer} :
    splits (answer :: answers) = (if answer.isSplit then 1 else 0) + splits answers := by
  rw [splits, List.countP_cons, Nat.add_comm]
  rfl

theorem perform_atTurn (settings : TransmitterSettings) (k : Nat) (c : Call) :
    (c.perform (atTurn settings k)).1 =
        atTurn settings (k + if (c.perform (atTurn settings k)).2.isSplit then 1 else 0) ∧
      ((c.perform (atTurn settings k)).2.isSplit = true →
        (c.perform (atTurn settings k)).2.HasId (toString (turn settings k))) := by
  rcases perform_cases (atTurn settings k) c with ⟨hone, hnext⟩ | ⟨hmany, hnext, hid⟩
  · rw [hone, hnext]
    exact ⟨rfl, nofun⟩
  · rw [takeSequenceId_atTurn] at hnext hid
    rw [hmany, hnext]
    exact ⟨rfl, fun _ => hid⟩

/-- How many messages were sent in several sentences is all that is left of the calls. -/
theorem performAll_atTurn (settings : TransmitterSettings) (k : Nat) (calls : List Call) :
    ((atTurn settings k).performAll calls).1 =
      atTurn settings (k + splits ((atTurn settings k).performAll calls).2) := by
  induction calls generalizing k with
  | nil => rfl
  | cons c calls ih =>
    obtain ⟨hnext, -⟩ := perform_atTurn settings k c
    rw [performAll_cons, splits_cons, hnext, ih, Nat.add_assoc]

theorem performAll_start (settings : TransmitterSettings) (calls : List Call) :
    (performAll { settings } calls).1 =
      atTurn settings (splits (performAll { settings } calls).2) := by
  have h := performAll_atTurn settings 0 calls
  rwa [atTurn_zero, Nat.zero_add] at h

/-- The id of a message in several sentences, after any other calls. -/
theorem hasId_performAll (settings : TransmitterSettings) (xs : List Call) (c : Call) :
    let sent := performAll { settings } xs
    let answer := (c.perform sent.1).2
    answer.isSplit = true → answer.HasId (toString (turn settings (splits sent.2))) := by
  dsimp only
  rw [performAll_start]
  exact (perform_atTurn settings _ c).2

/-- A call that gives no message in several sentences is not noticed by those after it. -/
theorem performAll_insert (h : (c.perform (t.performAll xs).1).2.isSplit = false) :
    t.performAll (xs ++ c :: ys) = ((t.performAll (xs ++ ys)).1,
      (t.performAll xs).2 ++ (c.perform (t.performAll xs).1).2 ::
        ((t.performAll xs).1.performAll ys).2) := by
  rcases perform_cases (t.performAll xs).1 c with ⟨-, hnext⟩ | ⟨hmany, -⟩
  · rw [performAll_append, performAll_append, performAll_cons, hnext]
  · rw [h] at hmany
    cases hmany

end Transponder.Transmitter

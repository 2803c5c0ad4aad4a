import Transponder.Proofs.Sentence.Framing
import Transponder.Proofs.Sentence.History
import Transponder.Proofs.Station.Delivery

/-!
# Lines that disturb nothing

Receivers with the same settings and the same table make the same of every line, whatever they have
counted, and agree on what is next (`Agrees.decode`, `Agrees.decodeAll`). A line that is refused,
that is a whole message, or that comes where nothing is put together leaves the table as it was
(`decode_of_apart`). Hence such a line changes nothing about the lines around it
(`decodeAll_insert`).
-/

namespace Transponder.Receiver

/-- Two receivers that differ at most in what they have counted. -/
structure Agrees (r r' : Receiver) : Prop where
  settings : r.settings = r'.settings
  table : r.table = r'.table

/-- A line that is no fragment to be put together with others. -/
def Apart (settings : ReceiverSettings) (line : String) : Prop :=
  (∃ e, Sentence.parse line settings.validateChecksum = .error e) ∨
    (∃ s, Sentence.parse line settings.validateChecksum = .ok s ∧ s.fragmentCount = 1) ∨
    settings.enableReassembly = false

/-- The message that came with a line, if any. -/
def message? (result : Except Error Received) : Option Message :=
  result.toOption.map (·.message)

variable {r r' : Receiver} {now : Moment} {line : String} {s : Sentence}
  {lines xs ys : List (Moment × String)}

theorem Agrees.trans {r'' : Receiver} (h : Agrees r r') (h' : Agrees r' r'') : Agrees r r'' :=
  ⟨h.settings.trans h'.settings, h.table.trans h'.table⟩

/-! ## One line -/

theorem decode_of_refused {e : Error}
    (h : Sentence.parse line r.settings.validateChecksum = .error e) :
    r.decode now line = (r, .error e) := by
  rw [decode, h]

theorem Agrees.collect (h : Agrees r r') : r.collect now s = r'.collect now s := by
  rw [Receiver.collect, Receiver.collect, h.settings, h.table]

/-- What is counted decides nothing. -/
theorem Agrees.decode (h : Agrees r r') :
    (r.decode now line).2 = (r'.decode now line).2 ∧
      Agrees (r.decode now line).1 (r'.decode now line).1 := by
  cases hparse : Sentence.parse line r.settings.validateChecksum with
  | error e =>
    rw [decode_of_refused hparse, decode_of_refused (h.settings ▸ hparse)]
    exact ⟨rfl, h⟩
  | ok s =>
    obtain ⟨statistics, hr⟩ := r.decode_of_parse now hparse
    obtain ⟨statistics', hr'⟩ := r'.decode_of_parse now (h.settings ▸ hparse)
    rw [hr, hr', h.collect]
    exact ⟨rfl, h.settings, rfl⟩

/-- What is said about a message is what its last sentence says. -/
theorem open?_eq_ok {whole : Fragment} {received : Received} (h : open? s whole = .ok received) :
    Message.ofPayload whole.payload whole.fillBits = .ok received.message ∧
      received.ownVessel = s.address.isOwnVessel ∧ received.receivedAt = s.receivedAt := by
  obtain ⟨message, hmessage, h⟩ := exists_of_bind_eq_ok h
  cases h
  exact ⟨hmessage, rfl, rfl⟩

/-- A message was decoded from bits, and the line that gave it is a sentence. -/
theorem exists_of_decode_eq_ok {received : Received} (h : (r.decode now line).2 = .ok received) :
    ∃ s b, Sentence.parse line r.settings.validateChecksum = .ok s ∧
      Message.decode b = .ok received.message ∧ received.receivedAt = s.receivedAt := by
  cases hparse : Sentence.parse line r.settings.validateChecksum with
  | error e =>
    rw [decode_of_refused hparse] at h
    cases h
  | ok s =>
    obtain ⟨statistics, hdecode⟩ := r.decode_of_parse now hparse
    rw [hdecode] at h
    obtain ⟨whole, -, hopen⟩ := exists_of_bind_eq_ok h
    obtain ⟨hmessage, -, htime⟩ := open?_eq_ok hopen
    exact ⟨s, _, rfl, hmessage, htime⟩

theorem settings_decode : (r.decode now line).1.settings = r.settings := by
  cases hparse : Sentence.parse line r.settings.validateChecksum with
  | error e => rw [decode_of_refused hparse]
  | ok s =>
    obtain ⟨statistics, hr⟩ := r.decode_of_parse now hparse
    rw [hr]

theorem collect_of_disabled (h : r.settings.enableReassembly = false) :
    r.collect now s = (r.table, .ok s.fragment) := by
  rw [collect, h, Bool.and_false]
  rfl

/-- The table after a fragment was put in and its message was taken if it is complete. -/
theorem table_collect (hs : s.isMultipart = true) (hr : r.settings.enableReassembly = true) :
    (r.collect now s).1 = (FragmentTable.Call.take (keyOf s)).apply (r.added now s) := by
  rw [collect_of_multipart hs hr, FragmentTable.Call.apply]
  cases (r.added now s).take? (keyOf s) <;> rfl

theorem collect_of_apart (h : Apart r.settings line)
    (hparse : Sentence.parse line r.settings.validateChecksum = .ok s) :
    r.collect now s = (r.table, .ok s.fragment) := by
  rcases h with ⟨e, he⟩ | ⟨s', hs', hone⟩ | hdisabled
  · rw [hparse] at he
    cases he
  · obtain rfl : s = s' := Except.ok.inj (hparse.symm.trans hs')
    exact collect_of_single (by rw [Sentence.isMultipart, hone]; rfl)
  · exact collect_of_disabled hdisabled

/-- Such a line leaves the table as it is. -/
theorem decode_of_apart (h : Apart r.settings line) : Agrees (r.decode now line).1 r := by
  cases hparse : Sentence.parse line r.settings.validateChecksum with
  | error e =>
    rw [decode_of_refused hparse]
    exact ⟨rfl, rfl⟩
  | ok s =>
    obtain ⟨statistics, hr⟩ := r.decode_of_parse now hparse
    rw [hr, collect_of_apart h hparse]
    exact ⟨rfl, rfl⟩

/-- What becomes of such a line has nothing to do with the table. -/
theorem result_of_apart (h : Apart r.settings line) (hr : r'.settings = r.settings) :
    (r'.decode now line).2 = (r.decode now line).2 := by
  cases hparse : Sentence.parse line r.settings.validateChecksum with
  | error e => rw [decode_of_refused hparse, decode_of_refused (hr ▸ hparse)]
  | ok s =>
    have hparse' : Sentence.parse line r'.settings.validateChecksum = .ok s := hr ▸ hparse
    obtain ⟨statistics, hdecode⟩ := r.decode_of_parse now hparse
    obtain ⟨statistics', hdecode'⟩ := r'.decode_of_parse now hparse'
    rw [hdecode, hdecode', collect_of_apart h hparse, collect_of_apart (hr ▸ h) hparse']

/-! ## Many lines -/

theorem decodeAll_cons : r.decodeAll ((now, line) :: lines) =
    (((r.decode now line).1.decodeAll lines).1,
      (r.decode now line).2 :: ((r.decode now line).1.decodeAll lines).2) :=
  rfl

theorem settings_decodeAll : (r.decodeAll lines).1.settings = r.settings := by
  induction lines generalizing r with
  | nil => rfl
  | cons l lines ih => exact ih.trans settings_decode

theorem decodeAll_append : r.decodeAll (xs ++ ys) =
    (((r.decodeAll xs).1.decodeAll ys).1,
      (r.decodeAll xs).2 ++ ((r.decodeAll xs).1.decodeAll ys).2) := by
  induction xs generalizing r with
  | nil => rfl
  | cons x xs ih =>
    obtain ⟨now, line⟩ := x
    rw [List.cons_append, decodeAll_cons, decodeAll_cons, ih]
    rfl

theorem length_decodeAll : (r.decodeAll lines).2.length = lines.length := by
  induction lines generalizing r with
  | nil => rfl
  | cons l lines ih => exact congrArg Nat.succ ih

theorem Agrees.decodeAll (h : Agrees r r') :
    (r.decodeAll lines).2 = (r'.decodeAll lines).2 ∧
      Agrees (r.decodeAll lines).1 (r'.decodeAll lines).1 := by
  induction lines generalizing r r' with
  | nil => exact ⟨rfl, h⟩
  | cons l lines ih =>
    obtain ⟨now, line⟩ := l
    obtain ⟨hresult, hnext⟩ : _ ∧ Agrees (r.decode now line).1 (r'.decode now line).1 := h.decode
    obtain ⟨hresults, hend⟩ := ih hnext
    rw [decodeAll_cons, decodeAll_cons, hresult, hresults]
    exact ⟨rfl, hend⟩

/-! ## Messages only -/

/-- To count a line changes nothing but the counts. -/
theorem parse_eq (r : Receiver) (now : Moment) (line : String) :
    (r.parse now line).2 = (r.decode now line).2.toOption ∧
      Agrees (r.parse now line).1 (r.decode now line).1 := by
  have hcounted : Agrees { r with statistics.sentences := r.statistics.sentences + 1 } r :=
    ⟨rfl, rfl⟩
  obtain ⟨hresult, hnext⟩ : _ ∧ Agrees _ (r.decode now line).1 := hcounted.decode
  rw [← hresult, parse]
  dsimp only
  split
  case h_1 next received hdecode =>
    rw [hdecode] at hnext ⊢
    exact ⟨rfl, hnext⟩
  case h_2 next e hdecode =>
    rw [hdecode] at hnext ⊢
    exact ⟨rfl, hnext.settings, hnext.table⟩

theorem parseAll_cons : r.parseAll ((now, line) :: lines) =
    (((r.parse now line).1.parseAll lines).1,
      ((r.parse now line).2.map (·.message)).toList ++ ((r.parse now line).1.parseAll lines).2) :=
  rfl

/-- The messages of a batch are those of its lines. -/
theorem parseAll_eq (r : Receiver) (lines : List (Moment × String)) :
    (r.parseAll lines).2 = (r.decodeAll lines).2.filterMap message? ∧
      Agrees (r.parseAll lines).1 (r.decodeAll lines).1 := by
  induction lines generalizing r with
  | nil => exact ⟨rfl, rfl, rfl⟩
  | cons l lines ih =>
    obtain ⟨now, line⟩ := l
    obtain ⟨hone, hnext⟩ := parse_eq r now line
    obtain ⟨hmessages, hend⟩ := ih (r.parse now line).1
    obtain ⟨hresults, hagrees⟩ : _ ∧ Agrees ((r.parse now line).1.decodeAll lines).1 _ :=
      hnext.decodeAll
    rw [parseAll_cons, decodeAll_cons]
    refine ⟨?_, hend.trans hagrees⟩
    rw [List.filterMap_cons, hmessages, hresults, hone, message?]
    cases (r.decode now line).2.toOption <;> rfl

/-- A line that is no fragment to be put together with others, anywhere in a feed: what becomes of
the other lines and what is waited for is the same as without it. The messages of the feed are the
same but for the one that came with this line, if there is one. -/
theorem decodeAll_insert (r : Receiver) (xs ys : List (Moment × String)) (now : Moment)
    (line : String) (h : Apart r.settings line) :
    (∃ front back, front.length = xs.length ∧ back.length = ys.length ∧
      (r.decodeAll (xs ++ ys)).2 = front ++ back ∧
      (r.decodeAll (xs ++ (now, line) :: ys)).2 = front ++ (r.decode now line).2 :: back) ∧
    (r.decodeAll (xs ++ (now, line) :: ys)).1.table = (r.decodeAll (xs ++ ys)).1.table ∧
    (∃ front back, (r.parseAll xs).2 = front ∧ (r.parseAll (xs ++ ys)).2 = front ++ back ∧
      (r.parseAll (xs ++ (now, line) :: ys)).2 =
        front ++ ((r.parse now line).2.map (·.message)).toList ++ back) ∧
    (r.parseAll (xs ++ (now, line) :: ys)).1.table = (r.parseAll (xs ++ ys)).1.table := by
  have hsettings : (r.decodeAll xs).1.settings = r.settings := settings_decodeAll
  obtain ⟨hresults, hend⟩ : _ ∧ Agrees _ (((r.decodeAll xs).1.decodeAll ys).1) :=
    (decode_of_apart (hsettings ▸ h) : Agrees ((r.decodeAll xs).1.decode now line).1 _).decodeAll
  have hown : ((r.decodeAll xs).1.decode now line).2 = (r.decode now line).2 :=
    result_of_apart h hsettings
  have hwithout : r.decodeAll (xs ++ ys) = _ := decodeAll_append
  have hwith : (r.decodeAll (xs ++ (now, line) :: ys)).2 = (r.decodeAll xs).2 ++
      (r.decode now line).2 :: ((r.decodeAll xs).1.decodeAll ys).2 := by
    rw [decodeAll_append, decodeAll_cons, hown, hresults]
  have htable : (r.decodeAll (xs ++ (now, line) :: ys)).1.table =
      (r.decodeAll (xs ++ ys)).1.table := by
    rw [decodeAll_append, decodeAll_cons, hwithout]
    exact hend.table
  refine ⟨⟨_, _, length_decodeAll, length_decodeAll, by rw [hwithout], hwith⟩, htable,
    ⟨_, ((r.decodeAll xs).1.decodeAll ys).2.filterMap message?, rfl, ?_, ?_⟩, ?_⟩
  · rw [(parseAll_eq r _).1, (parseAll_eq r _).1, hwithout, List.filterMap_append]
  · rw [(parseAll_eq r _).1, (parseAll_eq r _).1, hwith, List.filterMap_append, List.filterMap_cons,
      (parse_eq r now line).1, message?, List.append_assoc]
    cases (r.decode now line).2.toOption <;> rfl
  · rw [(parseAll_eq r _).2.table, (parseAll_eq r _).2.table, htable]

/-- The two sentences of a message. -/
def firstPart : String :=
  "!AIVDO,2,1,0,B,702R5`hnw7`S,0*53"

def secondPart : String :=
  "!AIVDO,2,2,0,B,?lvoj@,4*73"

/-- The second sentence with an error in its payload. -/
def damagedPart : String :=
  "!AIVDO,2,2,0,B,?lvojA,4*73"

/-- A damaged sentence, received when the first one would be too old already. -/
theorem decodeAll_insert_damagedPart :
    let run := (start {}).decodeAll
      [(⟨0, 0⟩, firstPart), (⟨90, 0⟩, damagedPart), (⟨60, 0⟩, secondPart)]
    run.2.map Except.isOk = [false, false, true] ∧ run.1.table.entries = [] := by
  have hrefused : ∃ e, Sentence.parse damagedPart true = .error e := by
    have hnone : (Sentence.parse damagedPart true).toOption = none := by decide +kernel
    cases h : Sentence.parse damagedPart true with
    | error e => exact ⟨e, rfl⟩
    | ok s =>
      rw [h] at hnone
      cases hnone
  have hundamaged : ((start {}).decodeAll [(⟨0, 0⟩, firstPart), (⟨60, 0⟩, secondPart)]).2.map
      Except.isOk = [false, true] ∧
      ((start {}).decodeAll [(⟨0, 0⟩, firstPart), (⟨60, 0⟩, secondPart)]).1.table.entries.isEmpty := by
    decide +kernel
  have hown : ((start {}).decode ⟨90, 0⟩ damagedPart).2.isOk = false := by
    obtain ⟨e, he⟩ := hrefused
    rw [decode_of_refused (r := start {}) he]
    rfl
  obtain ⟨⟨front, back, hfront, hback, hwithout, hwith⟩, htable, -⟩ := decodeAll_insert (start {})
    [(⟨0, 0⟩, firstPart)] [(⟨60, 0⟩, secondPart)] ⟨90, 0⟩ damagedPart (.inl hrefused)
  obtain ⟨a, rfl⟩ := List.length_eq_one_iff.mp hfront
  obtain ⟨b, rfl⟩ := List.length_eq_one_iff.mp hback
  simp only [List.singleton_append] at hwith hwithout htable
  rw [hwithout] at hundamaged
  obtain ⟨hoks, hempty⟩ := hundamaged
  obtain ⟨ha, hb⟩ := List.cons.inj hoks
  refine ⟨?_, ?_⟩
  · rw [hwith, List.map_cons, List.map_cons, hown, ha, hb]
  · rw [htable]
    exact List.isEmpty_iff.mp hempty

end Transponder.Receiver

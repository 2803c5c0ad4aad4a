import Transponder.Command.Session
import Transponder.Proofs.Station.Splitting
import Transponder.Proofs.Station.Turns
import Transponder.Proofs.Text.Lines

/-!
# Lines that send nothing

A line that is blank, that describes no message, or whose message cannot be sent is `Idle`: a
session that sends writes nothing for it and is as it was before (`sendLine_of_idleText`). Hence
such lines may be put into an input anywhere (`Padded`), and the same is written
(`Padded.lines_encoding`).
-/

namespace Transponder

namespace Command

open Transmitter

variable {settings : TransmitterSettings} {t : Transmitter} {text : String}
  {line : List UInt8} {lines padded : List (List UInt8)} {now : Moment} {n n' : Nat}

/-! ## Idle lines -/

/-- A text that is blank, no message, or a message that cannot be sent. -/
def IdleText (settings : TransmitterSettings) (text : String) : Prop :=
  (Text.trim text.toList).isEmpty = true ∨ Message.ofText? text = none ∨
    ∃ m e, Message.ofText? text = some m ∧ (encode { settings } m).2 = .error e

/-- The bytes of such a text. -/
def Idle (settings : TransmitterSettings) (line : List UInt8) : Prop :=
  ∃ text, Text.ofUtf8? line = some text ∧ IdleText settings text

theorem sendLine_of_blank (h : (Text.trim text.toList).isEmpty = true) :
    sendLine t text = (t, []) :=
  if_pos h

/-- A line that is not blank is one call of the transmitter if it describes a message. -/
theorem sendLine_eq (h : ¬ (Text.trim text.toList).isEmpty = true) : sendLine t text =
    match Message.ofText? text with
    | none => (t, [])
    | some m => (t.encodeLines m).map id (·.toOption.getD []) := by
  rw [sendLine, if_neg h]
  cases Message.ofText? text with
  | none => rfl
  | some m =>
    dsimp only [encodeLines]
    cases t.encode m with
    | mk t' result => cases result <;> rfl

theorem sendLine_of_idleText (h : IdleText t.settings text) : sendLine t text = (t, []) := by
  by_cases hblank : (Text.trim text.toList).isEmpty = true
  · exact sendLine_of_blank hblank
  · rw [sendLine_eq hblank]
    rcases h with h | h | ⟨m, e, hm, he⟩
    · exact absurd h hblank
    · rw [h]
    · have hencode : t.encode m = (t, .error e) :=
        encode_of_error (t := { settings := t.settings }) rfl he
      rw [hm]
      dsimp only [encodeLines]
      rw [hencode]
      rfl

theorem settings_sendLine : (sendLine t text).1.settings = t.settings := by
  by_cases hblank : (Text.trim text.toList).isEmpty = true
  · rw [sendLine_of_blank hblank]
  · rw [sendLine_eq hblank]
    cases Message.ofText? text with
    | none => rfl
    | some m => exact t.settings_encode m

/-! ## Inputs with idle lines -/

/-- `padded` are the lines with some more between them that are idle. -/
inductive Padded (settings : TransmitterSettings) :
    List (List UInt8) → List (List UInt8) → Prop where
  | nil : Padded settings [] []
  | keep (line : List UInt8) {lines padded : List (List UInt8)} :
      Padded settings lines padded → Padded settings (line :: lines) (line :: padded)
  | idle {line : List UInt8} {lines padded : List (List UInt8)} :
      Idle settings line → Padded settings lines padded → Padded settings lines (line :: padded)

theorem Padded.refl (lines : List (List UInt8)) : Padded settings lines lines := by
  induction lines with
  | nil => exact .nil
  | cons line lines ih => exact .keep line ih

theorem Padded.insert (front back : List (List UInt8)) (h : Idle settings line) :
    Padded settings (front ++ back) (front ++ line :: back) := by
  induction front with
  | nil => exact .idle h (.refl back)
  | cons l front ih => exact .keep l ih

/-- An idle line between the bytes of others. -/
theorem padded_lines_insert (front line back : List UInt8) (hfront : (Text.splitLines front).2 = [])
    (hline : Text.lineFeed ∉ line) (h : Idle settings (Text.dropReturn line)) :
    Padded settings (Text.lines (front ++ back))
      (Text.lines (front ++ (line ++ [Text.lineFeed]) ++ back)) := by
  have hended : (Text.splitLines (line ++ [Text.lineFeed])).2 = [] :=
    congrArg Prod.snd (Text.splitLines_line hline)
  have hone : Text.lines (line ++ [Text.lineFeed]) = [Text.dropReturn line] := by
    rw [Text.lines, Text.splitLines_line hline]
    rfl
  rw [List.append_assoc, Text.lines_append hfront, Text.lines_append hfront,
    Text.lines_append hended, hone]
  exact .insert _ _ h

theorem lines_cons (h : Text.ofUtf8? line = some text) :
    (Session.encoding t).lines now n (line :: lines) =
      let later := (Session.encoding (sendLine t text).1).lines now (n + 1) lines
      ⟨String.join (sendLine t text).2 ++ later.output, later.failure⟩ := by
  rw [Session.lines, Session.linesAt, h]
  rfl

theorem lines_cons_unreadable (h : Text.ofUtf8? line = none) :
    (Session.encoding t).lines now n (line :: lines) = ⟨"", some (unreadable n)⟩ := by
  rw [Session.lines, Session.linesAt, h]

/-- The same is written for an input with idle lines in it. It fails if the input itself fails; only
the number of the line is another one. -/
theorem Padded.lines_encoding (h : Padded t.settings lines padded) :
    ((Session.encoding t).lines now n padded).output =
        ((Session.encoding t).lines now n' lines).output ∧
      ((Session.encoding t).lines now n padded).failure.isSome =
        ((Session.encoding t).lines now n' lines).failure.isSome := by
  generalize hsettings : t.settings = settings at h
  induction h generalizing t n n' with
  | nil => exact ⟨rfl, rfl⟩
  | keep line _ ih =>
    cases hline : Text.ofUtf8? line with
    | none =>
      rw [lines_cons_unreadable hline, lines_cons_unreadable hline]
      exact ⟨rfl, rfl⟩
    | some text =>
      have hrest : (sendLine t text).1.settings = settings := settings_sendLine.trans hsettings
      rw [lines_cons hline, lines_cons hline]
      exact ⟨congrArg (String.join _ ++ ·) (ih hrest).1, (ih hrest).2⟩
  | idle hidle _ ih =>
    obtain ⟨text, hline, htext⟩ := hidle
    rw [lines_cons hline, sendLine_of_idleText (hsettings ▸ htext)]
    exact ⟨String.empty_append.trans (ih hsettings).1, (ih hsettings).2⟩

/-! ## Sequence ids and what sends nothing -/

/-- Whatever a transmitter was asked for, as sentences or as lines: the next message in several
sentences has the id in the settings or, without one, the number of such messages before it modulo
10. A call that fails or gives one sentence is not noticed by those after it. Hence a session that
sends writes the same for an input if idle lines are put into it anywhere. -/
theorem sequenceIds_advance (settings : TransmitterSettings) :
    (∀ calls c,
      let sent := performAll { settings } calls
      let answer := (Call.perform sent.1 c).2
      answer.isSplit = true → answer.HasId (toString (turn settings (splits sent.2)))) ∧
    (∀ xs c ys,
      let sent := performAll { settings } xs
      let answer := (Call.perform sent.1 c).2
      answer.isSplit = false →
        (performAll { settings } (xs ++ c :: ys)).1 = (performAll { settings } (xs ++ ys)).1 ∧
          ∃ later, (performAll { settings } (xs ++ ys)).2 = sent.2 ++ later ∧
            (performAll { settings } (xs ++ c :: ys)).2 = sent.2 ++ answer :: later) ∧
    ∀ now input padded, Padded settings (Text.lines input) (Text.lines padded) →
      let outcome := (Session.encoding { settings }).lines now 1 (Text.lines input)
      let outcome' := (Session.encoding { settings }).lines now 1 (Text.lines padded)
      outcome'.output = outcome.output ∧ outcome'.failure.isSome = outcome.failure.isSome := by
  refine ⟨hasId_performAll settings, ?_, fun now input padded h => h.lines_encoding⟩
  intro xs c ys sent answer hanswer
  have hinsert : performAll { settings } (xs ++ c :: ys) = _ := performAll_insert hanswer
  have hwithout : performAll { settings } (xs ++ ys) = _ := performAll_append
  rw [hinsert]
  exact ⟨rfl, _, congrArg Prod.snd hwithout, rfl⟩

/-- Settings with which `inquiry` takes two sentences. -/
def narrowSettings : TransmitterSettings :=
  { maxFragmentLength := 8 }

/-- An MMSI takes 30 bits. -/
def unsendable : Message :=
  .unknown 63 { mmsi := 1073741824 }

/-- The record of `inquiry`, as a line. -/
def inquiryLine : List UInt8 :=
  inquiry.toJson.render.toUTF8.toList ++ [Text.lineFeed]

-- What the transmitter sends is computed by the kernel alone.
attribute [local irreducible] Call.perform in
/-- Between two messages in two sentences each, there are one in one sentence and one that cannot be
sent; between their records there is a blank line. -/
theorem sequenceIds_advance_inquiry :
    let sent := performAll { settings := narrowSettings }
      [.encodeLines inquiry, .encode (.unknown 63 {}), .encode unsendable]
    sent.2.map (·.isSplit) = [true, false, false] ∧
      (Call.perform sent.1 (.encode inquiry)).2.isSplit = true ∧
      (Call.perform sent.1 (.encode inquiry)).2.HasId "1" ∧
      (performAll { settings := narrowSettings } [.encode unsendable, .encode inquiry]).1 =
        (performAll { settings := narrowSettings } [.encode inquiry]).1 ∧
      ((Session.encoding { settings := narrowSettings }).lines ⟨0, 0⟩ 1
        (Text.lines (inquiryLine ++ [32, Text.lineFeed] ++ inquiryLine))).output =
        "!AIVDM,2,1,0,A,:3KtNR00,0*3F\r\n!AIVDM,2,2,0,A,`QJ<,0*51\r\n" ++
        "!AIVDM,2,1,1,A,:3KtNR00,0*3E\r\n!AIVDM,2,2,1,A,`QJ<,0*50\r\n" := by
  intro sent
  obtain ⟨hturn, hinsert, hpadded⟩ := sequenceIds_advance narrowSettings
  have hsplit : (Call.perform sent.1 (.encode inquiry)).2.isSplit = true := by decide +kernel
  have hid : toString (turn narrowSettings (splits sent.2)) = "1" := by decide +kernel
  have hblank : Idle narrowSettings (Text.dropReturn [32]) :=
    ⟨" ", by decide +kernel, .inl (by decide +kernel)⟩
  refine ⟨by decide +kernel, hsplit, hid ▸ hturn _ _ hsplit,
    (hinsert [] (.encode unsendable) [.encode inquiry] (by decide +kernel)).1, ?_⟩
  have hlines := padded_lines_insert inquiryLine [32] inquiryLine (by decide +kernel) (by decide)
    hblank
  exact (hpadded ⟨0, 0⟩ _ _ hlines).1.trans (by decide +kernel)

end Command

end Transponder

import Transponder.Command.Session
import Transponder.Proofs.Report.Inline
import Transponder.Proofs.Station.Feed
import Transponder.Proofs.Text.Lines

/-!
# What a session writes that decodes

A session that decodes writes the records that its receiver finds in the lines that are not blank
(`records`), each with the time that its sentence says or else that of the clock. `layOut` tells
where they stand: in JSON one below the other, in comma-separated values with the names of a type in
front of its first record. A reporter keeps the types it has named; as long as these are the types
it has reported on (`Headed`), what it writes for a line is the layout of the record in the line
(`line_of_filled`), and so for a whole text (`linesAt_decoding`). The records were received, so
their texts hold no line breaks, and the lines of the output are those of the layout
(`decoding_writes_records`).
-/

namespace Transponder

namespace Receiver

/-- What a receiver makes of lines, one after the other. -/
def answers (r : Receiver) : List (Moment × String) → List (Option Received)
  | [] => []
  | (now, line) :: rest => (r.parse now line).2 :: (r.parse now line).1.answers rest

variable {r : Receiver} {now : Moment} {line : String}

theorem settings_parse : (r.parse now line).1.settings = r.settings :=
  (parse_eq r now line).2.settings.trans settings_decode

/-- Blanks around a line make no difference. -/
theorem parse_trimmed (r : Receiver) (now : Moment) (line : String) :
    r.parse now (Text.trimmed line) = r.parse now line := by
  have hsentence : ∀ validate,
      Sentence.parse (Text.trimmed line) validate = Sentence.parse line validate := by
    intro validate
    rw [Sentence.parse, Sentence.parse, Text.trimmed, String.toList_ofList, Text.trim_trim]
  simp only [parse, decode, hsentence]

end Receiver

namespace Command

/-- The lines that are not blank, with their numbers, of which the first is given. -/
def filled (number : Nat) (lines : List (List Char)) : List (String × Nat) :=
  ((lines.map String.ofList).zipIdx number).filter fun (line, _) => !(Text.trimmed line).isEmpty

/-- When the message of a line was received: when its sentence says, or else now. -/
def timeOf (validate : Bool) (reading : ClockReading) (line : String) : Moment :=
  match (Sentence.parse line validate).toOption.bind (·.receivedAt) with
  | some time => time.moment
  | none => reading.dated

/-- The records that a receiver finds in lines with numbers, each with its time. -/
def records (r : Receiver) (clock : Nat → ClockReading) (lines : List (String × Nat)) :
    List (Message × Moment) :=
  let heard := lines.map fun (line, number) => ((clock number).heard, Text.trimmed line)
  (lines.zip (r.answers heard)).filterMap fun ((line, number), answer) =>
    answer.map fun received =>
      (received.message, timeOf r.settings.validateChecksum (clock number) (Text.trimmed line))

/-- A line that is written. -/
inductive Written where
  /-- The names of the columns of a type. -/
  | names (messageType : UInt8)
  /-- The report on a message. -/
  | record (m : Message) (time : Moment)

def Written.text (format : ReportFormat) : Written → String
  | names messageType => Report.header messageType
  | record m time =>
    match format with
    | .json => m.jsonLine time
    | .csv => m.csvLine time

/-- What a line reports on, if it reports. -/
def Written.entry? : Written → Option (Message × Moment)
  | names _ => none
  | record m time => some (m, time)

/-- What stands in front of the report on a message of some type, if there were messages of the
types `earlier`. -/
def announced (format : ReportFormat) (earlier : List UInt8) (messageType : UInt8) :
    List Written :=
  if format = .csv ∧ messageType ∉ earlier then [.names messageType] else []

/-- The lines for some records that come behind messages of the types `earlier`. -/
def layOut (format : ReportFormat) (earlier : List UInt8) : List (Message × Moment) → List Written
  | [] => []
  | (m, time) :: records =>
    announced format earlier m.messageType ++
      .record m time :: layOut format (m.messageType :: earlier) records

variable {format : ReportFormat} {earlier : List UInt8} {xs ys : List (Message × Moment)}
  {m : Message} {time : Moment} {t : UInt8}

/-! ## Where the names stand -/

theorem layOut_append : layOut format earlier (xs ++ ys) =
    layOut format earlier xs ++
      layOut format ((xs.map (·.1.messageType)).reverse ++ earlier) ys := by
  induction xs generalizing earlier with
  | nil => rfl
  | cons x xs ih => simp [layOut, ih]

theorem mem_announced :
    .names t ∈ announced format earlier m.messageType ↔
      format = .csv ∧ m.messageType = t ∧ t ∉ earlier := by
  unfold announced
  split
  case isTrue h =>
    rw [List.mem_singleton, Written.names.injEq]
    exact ⟨fun ht => ⟨h.1, ht.symm, ht ▸ h.2⟩, fun ht => ht.2.1.symm⟩
  case isFalse h =>
    refine ⟨fun hmem => absurd hmem List.not_mem_nil, ?_⟩
    rintro ⟨hformat, rfl, hearlier⟩
    exact absurd ⟨hformat, hearlier⟩ h

theorem not_mem_announced : Written.record m time ∉ announced format earlier t := by
  unfold announced
  split <;> simp

/-- Names are only written of a type that comes for the first time. -/
theorem of_mem_layOut (h : .names t ∈ layOut format earlier xs) :
    format = .csv ∧ t ∉ earlier ∧ ∃ x ∈ xs, x.1.messageType = t := by
  induction xs generalizing earlier with
  | nil => exact absurd h List.not_mem_nil
  | cons x xs ih =>
    obtain ⟨m, time⟩ := x
    rcases List.mem_append.mp h with hnames | hrest
    · obtain ⟨hformat, htype, hearlier⟩ := mem_announced.mp hnames
      exact ⟨hformat, hearlier, _, List.mem_cons_self, htype⟩
    · rcases List.mem_cons.mp hrest with hrecord | hrest
      · cases hrecord
      · obtain ⟨hformat, hearlier, x, hx, htype⟩ := ih hrest
        exact ⟨hformat, fun hmem => hearlier (List.mem_cons_of_mem _ hmem), x,
          List.mem_cons_of_mem _ hx, htype⟩

/-- The records are written in their order. -/
theorem filterMap_layOut : (layOut format earlier xs).filterMap Written.entry? = xs := by
  induction xs generalizing earlier with
  | nil => rfl
  | cons x xs ih =>
    obtain ⟨m, time⟩ := x
    have hnames : (announced format earlier m.messageType).filterMap Written.entry? = [] := by
      unfold announced
      split <;> rfl
    rw [layOut, List.filterMap_append, hnames, List.nil_append, List.filterMap_cons, ih]
    rfl

theorem mem_of_record_mem_layOut (h : .record m time ∈ layOut format earlier xs) :
    (m, time) ∈ xs := by
  have hmem : (m, time) ∈ (layOut format earlier xs).filterMap Written.entry? :=
    List.mem_filterMap.mpr ⟨_, h, rfl⟩
  rwa [filterMap_layOut] at hmem

/-- The names of a type are written once, directly in front of its first record. -/
theorem exists_names (hearlier : t ∉ earlier) (h : ∃ x ∈ xs, x.1.messageType = t) :
    ∃ front m time back,
      layOut .csv earlier xs = front ++ .names t :: .record m time :: back ∧
        m.messageType = t ∧ .names t ∉ front ++ back ∧
        ∀ m time, .record m time ∈ front → m.messageType ≠ t := by
  induction xs generalizing earlier with
  | nil =>
    obtain ⟨x, hx, -⟩ := h
    exact absurd hx List.not_mem_nil
  | cons x xs ih =>
    obtain ⟨m, time⟩ := x
    by_cases htype : m.messageType = t
    · refine ⟨[], m, time, layOut .csv (t :: earlier) xs, ?_, htype, ?_, ?_⟩
      · rw [layOut, htype, announced, if_pos ⟨rfl, hearlier⟩]
        rfl
      · exact fun hmem => (of_mem_layOut hmem).2.1 List.mem_cons_self
      · exact fun _ _ hmem => absurd hmem List.not_mem_nil
    · have hrest : ∃ x ∈ xs, x.1.messageType = t := by
        obtain ⟨x, hx, hxt⟩ := h
        rcases List.mem_cons.mp hx with rfl | hx
        · exact absurd hxt htype
        · exact ⟨x, hx, hxt⟩
      have hother : t ∉ m.messageType :: earlier := by
        rw [List.mem_cons, not_or]
        exact ⟨Ne.symm htype, hearlier⟩
      obtain ⟨front, first, firstTime, back, hlines, hfirst, honce, hfront⟩ := ih hother hrest
      refine ⟨announced .csv earlier m.messageType ++ .record m time :: front, first, firstTime,
        back, ?_, hfirst, ?_, ?_⟩
      · rw [layOut, hlines, List.append_assoc, List.cons_append]
      · have hnames : .names t ∉ announced .csv earlier m.messageType := fun hmem =>
          htype (mem_announced.mp hmem).2.1
        simpa [hnames] using honce
      · intro m' time' hmem
        rcases List.mem_append.mp hmem with hmem | hmem
        · exact absurd hmem not_mem_announced
        · rcases List.mem_cons.mp hmem with hmem | hmem
          · obtain ⟨rfl, rfl⟩ := Written.record.inj hmem
            exact htype
          · exact hfront m' time' hmem

/-! ## Records -/

variable {r : Receiver} {clock : Nat → ClockReading} {reading : ClockReading} {line : String}
  {number : Nat} {lines : List (String × Nat)}

/-- The record in a line, with its time. -/
def record? (r : Receiver) (reading : ClockReading) (line : String) : Option (Message × Moment) :=
  (r.parse reading.heard (Text.trimmed line)).2.map fun received =>
    (received.message, timeOf r.settings.validateChecksum reading (Text.trimmed line))

theorem records_cons : records r clock ((line, number) :: lines) =
    (record? r (clock number) line).toList ++
      records (r.parse (clock number).heard (Text.trimmed line)).1 clock lines := by
  rw [records, records, Receiver.settings_parse, List.map_cons, Receiver.answers,
    List.zip_cons_cons, List.filterMap_cons, record?]
  cases (r.parse (clock number).heard (Text.trimmed line)).2 <;> rfl

/-- The messages of the records are those of a batch, blanks around its lines or not. -/
theorem map_fst_records : (records r clock lines).map (·.1) =
    (r.parseAll (lines.map fun (line, number) => ((clock number).heard, line))).2 := by
  induction lines generalizing r with
  | nil => rfl
  | cons l lines ih =>
    obtain ⟨line, number⟩ := l
    rw [records_cons, List.map_append, ih, List.map_cons, Receiver.parseAll_cons,
      Receiver.parse_trimmed, record?, Receiver.parse_trimmed]
    cases (r.parse (clock number).heard line).2 <;> rfl

/-- A line that gives a record is a sentence, and its message was decoded. -/
theorem exists_of_parse {received : Received}
    (h : (r.parse reading.heard line).2 = some received) :
    ∃ s b, Sentence.parse line r.settings.validateChecksum = .ok s ∧
      Message.decode b = .ok received.message ∧ received.receivedAt = s.receivedAt := by
  rw [(Receiver.parse_eq r reading.heard line).1] at h
  exact Receiver.exists_of_decode_eq_ok (Message.eq_ok_of_toOption h)

theorem isInline_of_mem_records : ∀ x ∈ records r clock lines, ∀ s ∈ x.1.texts,
    Report.IsInline s.toList := by
  induction lines generalizing r with
  | nil => exact fun x hx => absurd hx List.not_mem_nil
  | cons l lines ih =>
    obtain ⟨line, number⟩ := l
    rw [records_cons]
    refine List.forall_mem_append.mpr ⟨fun x hx s hs => ?_, ih⟩
    obtain ⟨received, hreceived, rfl⟩ := Option.map_eq_some_iff.mp (Option.mem_toList.mp hx)
    obtain ⟨-, b, -, hdecode, -⟩ := exists_of_parse hreceived
    obtain ⟨count, hfield⟩ := Message.texts_of_decode hdecode s hs
    exact Report.isInline_of_isFieldText hfield

/-! ## The session -/

variable {rep : Reporter}

/-- A reporter that has written the names of the types `earlier`, if it writes names. -/
def Headed (rep : Reporter) (earlier : List UInt8) : Prop :=
  rep.format = .csv → ∀ t, t ∈ rep.headed ↔ t ∈ earlier

/-- The lines that a reporter writes for a message. -/
theorem report_spec (h : Headed rep earlier) (m : Message) (time : Moment) :
    (rep.report m time).2 = (layOut rep.format earlier [(m, time)]).map (·.text rep.format) ∧
      (rep.report m time).1.receiver = rep.receiver ∧
      (rep.report m time).1.format = rep.format ∧
      Headed (rep.report m time).1 (m.messageType :: earlier) := by
  obtain ⟨receiver, format, headed⟩ := rep
  cases format with
  | json => exact ⟨rfl, rfl, rfl, fun h => nomatch h⟩
  | csv =>
    have hsame : ∀ t, t ∈ headed ↔ t ∈ earlier := h rfl
    unfold Reporter.report
    dsimp only
    by_cases hearlier : m.messageType ∈ earlier
    · rw [if_pos ((hsame _).mpr hearlier), layOut, announced, if_neg fun hnew => hnew.2 hearlier]
      refine ⟨rfl, rfl, rfl, fun _ t => (hsame t).trans ⟨List.mem_cons_of_mem _, fun hmem => ?_⟩⟩
      rcases List.mem_cons.mp hmem with rfl | hmem
      · exact hearlier
      · exact hmem
    · rw [if_neg (mt (hsame _).mp hearlier), layOut, announced, if_pos ⟨rfl, hearlier⟩]
      refine ⟨rfl, rfl, rfl, fun _ t => ?_⟩
      rw [List.mem_cons, List.mem_cons, hsame]

theorem line_of_blank (h : (Text.trimmed line).isEmpty = true) : rep.line reading line = (rep, []) :=
  if_pos h

/-- A message was received when its sentence says. -/
theorem timeOf_of_parse {received : Received}
    (h : (r.parse reading.heard line).2 = some received) :
    (received.receivedAt.map Instant.moment).getD reading.dated =
      timeOf r.settings.validateChecksum reading line := by
  obtain ⟨s, -, hparse, -, htime⟩ := exists_of_parse h
  rw [timeOf, hparse, htime]
  show _ = match s.receivedAt with | some time => time.moment | none => reading.dated
  cases s.receivedAt <;> rfl

/-- What a reporter does with a line that is not blank. -/
theorem line_of_filled (h : Headed rep earlier) (hline : ¬ (Text.trimmed line).isEmpty = true) :
    let found := (record? rep.receiver reading line).toList
    ∃ rep', rep.line reading line =
        (rep', (layOut rep.format earlier found).map (·.text rep.format)) ∧
      rep'.receiver = (rep.receiver.parse reading.heard (Text.trimmed line)).1 ∧
      rep'.format = rep.format ∧
      Headed rep' ((found.map (·.1.messageType)).reverse ++ earlier) := by
  intro found
  have hrun : ∀ receiver answer,
      rep.receiver.parse reading.heard (Text.trimmed line) = (receiver, answer) →
      rep.line reading line = answer.elim ({ rep with receiver }, []) fun received =>
        Reporter.report { rep with receiver } received.message
          ((received.receivedAt.map Instant.moment).getD reading.dated) := by
    intro receiver answer hparse
    unfold Reporter.line
    dsimp only
    rw [if_neg hline, hparse]
    cases answer <;> rfl
  generalize hreceiver : (rep.receiver.parse reading.heard (Text.trimmed line)).1 = receiver
  generalize hanswer : (rep.receiver.parse reading.heard (Text.trimmed line)).2 = answer
  rw [hrun receiver answer (Prod.ext hreceiver hanswer)]
  cases answer with
  | none =>
    have hfound : found = [] := congrArg Option.toList (congrArg (Option.map _) hanswer)
    rw [hfound]
    exact ⟨_, rfl, rfl, rfl, h⟩
  | some received =>
    have hfound : found = [(received.message,
        timeOf rep.receiver.settings.validateChecksum reading (Text.trimmed line))] :=
      congrArg Option.toList (congrArg (Option.map _) hanswer)
    have hheaded : Headed { rep with receiver } earlier := h
    obtain ⟨hlines, hkept, hformat, hnext⟩ := report_spec hheaded received.message
      (timeOf rep.receiver.settings.validateChecksum reading (Text.trimmed line))
    rw [hfound]
    dsimp only [Option.elim_some]
    rw [timeOf_of_parse hanswer]
    exact ⟨_, Prod.ext rfl hlines, hkept, hformat, hnext⟩

theorem linesAt_cons {text : List Char} {rest : List (List UInt8)} :
    (Session.decoding rep).linesAt clock number (Text.utf8 text :: rest) =
      let ran := rep.line (clock number) (String.ofList text)
      let later := (Session.decoding ran.1).linesAt clock (number + 1) rest
      ⟨String.join (ran.2.map (· ++ "\n")) ++ later.output, later.failure⟩ := by
  rw [Session.linesAt, Text.ofUtf8?_utf8]
  dsimp only [Session.line]

theorem filled_cons {text : List Char} {texts : List (List Char)} :
    filled number (text :: texts) =
      if (Text.trimmed (String.ofList text)).isEmpty then filled (number + 1) texts
      else (String.ofList text, number) :: filled (number + 1) texts := by
  rw [filled, List.map_cons, List.zipIdx_cons, List.filter_cons]
  by_cases hblank : (Text.trimmed (String.ofList text)).isEmpty = true
  · rw [if_pos hblank, if_neg (by simp [hblank])]
    rfl
  · rw [if_neg hblank, if_pos (by simp [hblank])]
    rfl

/-- What a session that decodes writes for the lines of a text. -/
theorem linesAt_decoding (h : Headed rep earlier) (texts : List (List Char)) (number : Nat) :
    (Session.decoding rep).linesAt clock number (texts.map Text.utf8) =
      ⟨String.join ((layOut rep.format earlier
        (records rep.receiver clock (filled number texts))).map
          fun w => w.text rep.format ++ "\n"), none⟩ := by
  induction texts generalizing rep earlier number with
  | nil => rfl
  | cons text texts ih =>
    rw [List.map_cons, linesAt_cons, filled_cons]
    by_cases hblank : (Text.trimmed (String.ofList text)).isEmpty = true
    · rw [line_of_blank hblank, if_pos hblank]
      dsimp only
      rw [ih h]
      rfl
    · obtain ⟨rep', hrun, hreceiver, hformat, hheaded⟩ := line_of_filled h hblank
      rw [if_neg hblank, records_cons, layOut_append, hrun]
      dsimp only
      rw [ih hheaded, hreceiver, hformat, List.map_append, String.join_append, List.map_map]
      rfl

/-! ## What is written -/

theorem isInline_written {w : Written} (h : w ∈ layOut format [] (records r clock lines)) :
    Report.IsInline (w.text format).toList := by
  cases w with
  | names t => exact Report.isInline_header _
  | record m time =>
    have htexts := isInline_of_mem_records _ (mem_of_record_mem_layOut h)
    cases format with
    | json => exact Report.isInline_jsonLine htexts
    | csv => exact Report.isInline_csvLine htexts

theorem toList_join_lines {α : Type} (f : α → String) (xs : List α) :
    (String.join (xs.map fun x => f x ++ "\n")).toList =
      (xs.map fun x => (f x).toList).flatMap (· ++ ['\n']) := by
  have hline : ∀ x, (f x ++ "\n").toList = (f x).toList ++ ['\n'] := fun _ =>
    String.toList_append
  rw [String.toList_join, List.flatMap_map, List.flatMap_map]
  exact congrArg (xs.flatMap ·) (funext hline)

/-- Whatever a receiver has heard before and whatever the clock shows: for a text, a session that
decodes writes the records in the lines that are not blank, each as one line and nothing else. The
messages are those of a batch of these lines. In comma-separated values, the names of each type
that was found are written once, directly in front of its first record. -/
theorem decoding_writes_records (r : Receiver) (format : ReportFormat) (clock : Nat → ClockReading)
    (text : String) :
    let lines := filled 1 (Text.textLines text.toList)
    let found := records r clock lines
    let written := layOut format [] found
    let outcome := (Session.decoding ⟨r, format, []⟩).linesAt clock 1
      (Text.lines (Text.utf8 text.toList))
    outcome = ⟨String.join (written.map fun w => w.text format ++ "\n"), none⟩ ∧
      (∀ w ∈ written, Report.IsInline (w.text format).toList) ∧
      Text.textLines outcome.output.toList = written.map (fun w => (w.text format).toList) ∧
      written.filterMap Written.entry? = found ∧
      (∀ t, .names t ∈ written → format = .csv ∧ ∃ x ∈ found, x.1.messageType = t) ∧
      (format = .csv → ∀ x ∈ found, ∃ front m time back,
        written = front ++ .names x.1.messageType :: .record m time :: back ∧
          m.messageType = x.1.messageType ∧ .names x.1.messageType ∉ front ++ back ∧
          ∀ m time, .record m time ∈ front → m.messageType ≠ x.1.messageType) ∧
      found.map (·.1) =
        (r.parseAll (lines.map fun (line, number) => ((clock number).heard, line))).2 := by
  intro lines found written outcome
  have hheaded : Headed ⟨r, format, []⟩ [] := fun _ _ => Iff.rfl
  have houtcome : outcome = ⟨String.join (written.map fun w => w.text format ++ "\n"), none⟩ := by
    show Session.linesAt _ _ _ _ = _
    rw [Text.lines_utf8, linesAt_decoding hheaded]
  have hinline : ∀ w ∈ written, Report.IsInline (w.text format).toList := fun _ => isInline_written
  have hlines :
      Text.textLines outcome.output.toList = written.map fun w => (w.text format).toList := by
    have hbreaks : ∀ line ∈ written.map fun w => (w.text format).toList,
        '\n' ∉ line ∧ '\r' ∉ line :=
      List.forall_mem_map.mpr fun w hw => (hinline w hw).no_breaks
    rw [houtcome, toList_join_lines (·.text format) written, Text.textLines_flatMap hbreaks]
  refine ⟨houtcome, hinline, hlines, filterMap_layOut, fun t ht => ?_, ?_, map_fst_records⟩
  · obtain ⟨hformat, -, hfound⟩ := of_mem_layOut ht
    exact ⟨hformat, hfound⟩
  · rintro rfl x hx
    exact exists_names List.not_mem_nil ⟨x, hx, rfl⟩

/-- A message in two sentences. Between them are a blank line, one without use, and a message of
another type that says when it was received, which comes again at the end. -/
def interleaved : String :=
  "!AIVDM,2,1,0,A,:3KtNR00,0*3F\r\n" ++
  "\\c:1671620143*5A\\!AIVDM,1,1,,A,>02M3Cj8,2*77\n" ++
  " \nx\n" ++
  "!AIVDM,2,2,0,A,`QJ<,0*51\n" ++
  "!AIVDM,1,1,,A,>02M3Cj8,2*77"

/-- A clock that shows the number of the line as seconds. -/
def lineClock (number : Nat) : ClockReading :=
  ⟨⟨number, 0⟩, ⟨number, 0⟩⟩

/-- Each type is named in front of its first record, and the second record of type 14 stands alone. -/
theorem decoding_writes_records_interleaved :
    let outcome := (Session.decoding ⟨.start {}, .csv, []⟩).linesAt lineClock 1
      (Text.lines (Text.utf8 interleaved.toList))
    (Text.textLines outcome.output.toList).map String.ofList =
      ["type,repeatIndicator,mmsi,timestamp,text",
        "14,0,2573135,2022-12-21T10:55:43Z,\"\"\"\"",
        "type,repeatIndicator,mmsi,timestamp,destMmsi",
        "10,0,230629000,1970-01-01T00:00:05Z,2655651",
        "14,0,2573135,1970-01-01T00:00:06Z,\"\"\"\""] := by
  intro outcome
  obtain ⟨-, -, hlines, -⟩ :=
    decoding_writes_records (.start {}) .csv lineClock interleaved
  rw [hlines]
  decide +kernel

end Command

end Transponder

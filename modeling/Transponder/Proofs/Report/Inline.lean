import Transponder.Proofs.Message.Texts
import Transponder.Proofs.Report.Alignment

/-!
# A report is one line

The names, the signs between cells and all cells but texts are made of spaces and printable
characters of ASCII, none of which ends a line, and so are the texts that the wire can carry. So
the two lines of a report on a message whose texts were received, and the line of its header, are
lines (`isInline_jsonLine`, `isInline_csvLine`, `isInline_header`). In comma-separated values this
takes what the wire can carry: a text stands there as it is, line breaks included.
-/

namespace Transponder.Report

/-- Whether a character is a space or a printable one of ASCII. -/
def isInline (c : Char) : Bool :=
  ' ' ≤ c && c ≤ '~'

/-- A text of such characters. -/
def IsInline (cs : List Char) : Prop :=
  ∀ c ∈ cs, isInline c = true

instance (cs : List Char) : Decidable (IsInline cs) :=
  decidable_of_iff (cs.all isInline = true) List.all_eq_true

variable {cs ds : List Char} {c : Char}

theorem isInline_nil : IsInline [] :=
  fun _ hc => absurd hc List.not_mem_nil

theorem isInline_cons : IsInline (c :: cs) ↔ isInline c = true ∧ IsInline cs :=
  List.forall_mem_cons

theorem isInline_append : IsInline (cs ++ ds) ↔ IsInline cs ∧ IsInline ds :=
  List.forall_mem_append

theorem isInline_flatMap {f : Char → List Char} (h : ∀ c ∈ cs, IsInline (f c)) :
    IsInline (cs.flatMap f) := by
  intro d hd
  obtain ⟨c, hc, hd⟩ := List.mem_flatMap.mp hd
  exact h c hc d hd

theorem isInline_intercalate {sep : List Char} {pieces : List (List Char)} (hsep : IsInline sep)
    (h : ∀ piece ∈ pieces, IsInline piece) : IsInline (List.intercalate sep pieces) := by
  match pieces, h with
  | [], _ => exact isInline_nil
  | [piece], h =>
    rw [List.intercalate_singleton]
    exact h piece List.mem_cons_self
  | piece :: next :: pieces, h =>
    obtain ⟨hpiece, hrest⟩ := List.forall_mem_cons.mp h
    rw [List.intercalate_cons_cons]
    exact isInline_append.mpr
      ⟨isInline_append.mpr ⟨hpiece, hsep⟩, isInline_intercalate hsep hrest⟩

/-- No line ends within an inline text. -/
theorem IsInline.no_breaks (h : IsInline cs) : '\n' ∉ cs ∧ '\r' ∉ cs :=
  ⟨fun hmem => absurd (h _ hmem) (by decide), fun hmem => absurd (h _ hmem) (by decide)⟩

theorem isAscii_of_isInline (h : isInline c = true) : Text.isAscii c = true := by
  have hle : c.toNat ≤ 126 := of_decide_eq_true (Bool.and_eq_true_iff.mp h).2
  rw [Text.isAscii, decide_eq_true_iff]
  omega

theorem IsPlain.isInline (h : IsPlain cs) : IsInline cs := by
  intro c hc
  have hinline : isPlain c = true → Report.isInline c = true := by
    refine Text.of_isAscii (isAscii_of_isPlain (h c hc)) ?_
    decide +kernel
  exact hinline (h c hc)

/-- A text of a field is inline. -/
theorem isInline_of_isFieldText {count : Nat} {s : String} (h : Text.IsFieldText count s) :
    IsInline s.toList := by
  intro c hc
  obtain ⟨hlow, hhigh⟩ := Text.sentChar_range c
  rw [h.sent c hc] at hlow hhigh
  rw [isInline, decide_eq_true hlow, Bool.true_and, decide_eq_true_iff]
  exact Char.le_trans hhigh (by decide)

/-! ## Cells -/

/-- What is inline stays so in JSON, where quotes and backslashes have a backslash in front. -/
theorem isInline_stringChars {s : String} (h : IsInline s.toList) :
    IsInline (Json.stringChars s) := by
  have hescaped : ∀ c ∈ s.toList, IsInline (Json.escapeChar c) := by
    intro c hc
    have hchar : isInline c = true → IsInline (Json.escapeChar c) := by
      refine Text.of_isAscii (isAscii_of_isInline (h c hc)) ?_
      decide +kernel
    exact hchar (h c hc)
  exact isInline_append.mpr ⟨isInline_cons.mpr ⟨rfl, isInline_flatMap hescaped⟩, by decide⟩

theorem isInline_quotedText {s : String} (h : IsInline s.toList) :
    IsInline (Cell.quotedText s).toList := by
  have hdoubled : ∀ c ∈ s.toList, IsInline (if c = '"' then ['"', '"'] else [c]) := by
    intro c hc
    split
    · decide
    · exact isInline_cons.mpr ⟨h c hc, isInline_nil⟩
  rw [Cell.quotedText, String.toList_ofList]
  exact isInline_append.mpr ⟨isInline_cons.mpr ⟨rfl, isInline_flatMap hdoubled⟩, by decide⟩

theorem isPlain_of_isDigits {ds : List Char} (h : Json.IsDigits ds) : IsPlain ds := by
  intro c hc
  rw [isPlain, Char.isAlphanum, h.2 c hc, Bool.or_true, Bool.true_or]

theorem isPlain_of_isUnsigned (h : Json.IsUnsigned cs) : IsPlain cs := by
  obtain ⟨whole, fraction, exponent, hwhole, hfraction, hexponent, rfl⟩ := h
  refine isPlain_append.mpr ⟨isPlain_of_isDigits hwhole.1, isPlain_append.mpr ⟨?_, ?_⟩⟩
  · cases hfraction with
    | none => exact isPlain_nil
    | some hdigits => exact isPlain_cons.mpr ⟨rfl, isPlain_of_isDigits hdigits⟩
  · cases hexponent with
    | none => exact isPlain_nil
    | some sign hsign hdigits =>
      refine isPlain_cons.mpr ⟨rfl, isPlain_cons.mpr ⟨?_, isPlain_of_isDigits hdigits⟩⟩
      rcases hsign with rfl | rfl <;> rfl

theorem isPlain_realChars (x : Binary64) : IsPlain (Json.realChars x) := by
  cases hfinite : x.isFinite with
  | true =>
    rcases Json.isNumber_realChars hfinite with h | ⟨ds, h, hds⟩
    · exact isPlain_of_isUnsigned h
    · rw [hds]
      exact isPlain_cons.mpr ⟨rfl, isPlain_of_isUnsigned h⟩
  | false =>
    rw [Json.realChars, if_neg (hfinite ▸ Bool.false_ne_true)]
    decide

/-- A cell whose text, if it is one, is inline. -/
def InlineCell : Cell → Prop
  | .text s => IsInline s.toList
  | _ => True

/-- Both forms of a cell are inline. -/
theorem isInline_cell {cell : Cell} (hplain : PlainCell cell) (h : InlineCell cell) :
    IsInline cell.json.chars ∧ IsInline cell.csv.toList := by
  cases hplain with
  | natural n =>
    have htext := (isPlain_toString n).isInline
    exact ⟨by rw [Cell.json, chars_integer]; exact htext, htext⟩
  | flag b =>
    have hboth : ∀ b, IsInline (Cell.flag b).json.chars ∧ IsInline (Cell.flag b).csv.toList := by
      decide
    exact hboth b
  | coordinate x =>
    exact ⟨by rw [Cell.json, Json.chars]; exact (isPlain_realChars _).isInline,
      (isPlain_fixed _ x).isInline⟩
  | decimal x =>
    exact ⟨by rw [Cell.json, Json.chars]; exact (isPlain_realChars _).isInline,
      (isPlain_fixed _ x).isInline⟩
  | text s =>
    exact ⟨by rw [Cell.json, Json.chars]; exact isInline_stringChars h, isInline_quotedText h⟩
  | label hplain =>
    exact ⟨by rw [Cell.json, Json.chars]; exact isInline_stringChars hplain.isInline,
      hplain.isInline⟩
  | binary hplain =>
    exact ⟨by rw [Cell.json, Json.chars]; exact isInline_stringChars hplain.isInline,
      hplain.isInline⟩
  | empty => decide

/-! ## Fields -/

theorem inlineCell_text {s : String} : InlineCell (.text s) ↔ IsInline s.toList :=
  Iff.rfl

theorem inlineCell_of_ne_text {cell : Cell} (h : ∀ s, cell ≠ .text s) : InlineCell cell := by
  cases cell with
  | text s => exact absurd rfl (h s)
  | _ => trivial

theorem inlineCell_elim {α : Type} {make : α → Cell} (h : ∀ a, InlineCell (make a))
    (a : Option α) : InlineCell (a.elim .empty make) := by
  cases a with
  | none => trivial
  | some a => exact h a

/-- The cells of a message with inline texts are inline. -/
theorem inlineCell_of_mem_fields {m : Message} (h : ∀ s ∈ m.texts, IsInline s.toList) :
    ∀ entry ∈ m.fields, InlineCell entry.2 := by
  cases m with
  | staticVoyageData m | addressedSafety m | safetyBroadcast m | extendedClassBReport m =>
    simpa [Message.fields, inlineCell_text, inlineCell_of_ne_text, Message.texts] using h
  | aidToNavigationReport m =>
    have hname : IsInline m.fullName.toList := by
      rw [AidToNavigationReport.fullName, String.toList_append]
      exact isInline_append.mpr (by simpa [Message.texts] using h)
    simp [Message.fields, inlineCell_text, inlineCell_of_ne_text, hname]
  | staticDataReport m =>
    obtain ⟨header, part⟩ := m
    cases part with
    | a vesselName =>
      simpa [Message.fields, staticDataFields, inlineCell_text, inlineCell_of_ne_text,
        Message.texts, StaticDataPart.texts] using h
    | b equipment =>
      simpa [Message.fields, staticDataFields, inlineCell_text, inlineCell_of_ne_text,
        inlineCell_elim, Message.texts, StaticDataPart.texts] using h
  | channelManagement m =>
    cases harea : m.area <;> simp [Message.fields, inlineCell_of_ne_text, harea]
  | _ =>
    simp [Message.fields, FieldList.entries, acknowledgementNames, assignmentNames,
      reservationNames, inlineCell_of_ne_text, inlineCell_elim]

/-! ## Lines -/

variable {m : Message} {time : Moment}

theorem inline_entries (h : ∀ s ∈ m.texts, IsInline s.toList) :
    ∀ entry ∈ m.reportFields time,
      IsInline entry.2.json.chars ∧ IsInline entry.2.csv.toList := by
  have hinline : ∀ entry ∈ m.reportFields time, InlineCell entry.2 := by
    simp only [Message.reportFields, List.forall_mem_append, List.forall_mem_cons]
    exact ⟨⟨trivial, trivial, trivial, trivial, fun _ h => absurd h List.not_mem_nil⟩,
      inlineCell_of_mem_fields h⟩
  exact fun entry hentry =>
    isInline_cell (plainCell_of_mem_reportFields m time entry hentry) (hinline entry hentry)

theorem inline_headerNames (t : UInt8) : ∀ name ∈ headerNames t, IsInline name.toList :=
  fun name hname => (isPlain_headerNames t name hname).isInline

theorem inline_reportNames (m : Message) (time : Moment) :
    ∀ name ∈ (m.reportFields time).map (·.1), IsInline name.toList := by
  by_cases hm : ∃ messageType header, m = .unknown messageType header
  · -- With no fields of its own it has the names of a type that has none.
    obtain ⟨messageType, header, rfl⟩ := hm
    exact inline_headerNames 0
  · rw [Message.names_reportFields fun messageType header h => absurd ⟨messageType, header, h⟩ hm]
    exact inline_headerNames _

theorem isInline_header (t : UInt8) : IsInline (header t).toList := by
  rw [header_eq, String.toList_intercalate]
  exact isInline_intercalate (by decide) (List.forall_mem_map.mpr (inline_headerNames t))

theorem isInline_csvLine (h : ∀ s ∈ m.texts, IsInline s.toList) :
    IsInline (m.csvLine time).toList := by
  rw [Message.csvLine_eq, String.toList_intercalate, List.map_map]
  exact isInline_intercalate (by decide)
    (List.forall_mem_map.mpr fun entry hentry => (inline_entries h entry hentry).2)

theorem isInline_entryChars {entries : List (String × Json)}
    (h : ∀ entry ∈ entries, IsInline entry.1.toList ∧ IsInline entry.2.chars) :
    IsInline (Json.entryChars true entries) ∧ IsInline (Json.entryChars false entries) := by
  induction entries with
  | nil => exact ⟨isInline_nil, isInline_nil⟩
  | cons entry entries ih =>
    obtain ⟨⟨hname, hvalue⟩, hrest⟩ := List.forall_mem_cons.mp h
    have htext : IsInline (Json.entryText entry) := isInline_append.mpr
      ⟨isInline_stringChars hname, isInline_cons.mpr ⟨rfl, hvalue⟩⟩
    have hfirst : IsInline (Json.entryChars true (entry :: entries)) := by
      rw [(Json.entryChars_cons entry entries).1]
      exact isInline_append.mpr ⟨htext, (ih hrest).2⟩
    rw [(Json.entryChars_cons entry entries).2]
    exact ⟨hfirst, isInline_cons.mpr ⟨rfl, hfirst⟩⟩

theorem isInline_jsonLine (h : ∀ s ∈ m.texts, IsInline s.toList) :
    IsInline (m.jsonLine time).toList := by
  rw [Message.jsonLine, Json.render, String.toList_ofList, Message.reportJson_eq, Json.chars]
  refine isInline_append.mpr ⟨isInline_cons.mpr ⟨rfl, (isInline_entryChars ?_).1⟩, by decide⟩
  refine List.forall_mem_map.mpr fun entry hentry => ?_
  exact ⟨inline_reportNames m time _ (List.mem_map_of_mem hentry),
    (inline_entries h entry hentry).1⟩

end Transponder.Report

import Mathlib.Data.List.Nodup
import Transponder.Proofs.Json.Reading
import Transponder.Proofs.Report.Parts
import Transponder.Proofs.Report.Plain

/-!
# The lines of a report and its header

A report can be read in two ways, as a line of JSON and as a line of comma-separated values under a
header. Whatever a message holds, both readers find the columns of the header, each once and in its
order, and under each of them the same cell; the parts of the record are found whole, and the cells
of the parts that it lacks are the ones with nothing in them (`Message.lines_align`). A message
without a layout that claims a type which has one is the only exception: it has fewer cells than its
header has columns.

`Shows` says what the two readers see of a cell. Only a text is put between quotes; the field of any
other cell that is not a quantity is its text in JSON, but for the quotes there.
-/

namespace Transponder.Report

/-- What is read for a number in JSON: its value, or `null` if it is not finite. -/
def ShowsNumber (x : Binary64) (v : Json) : Prop :=
  if x.isFinite = true then Json.number? (Json.realChars x) = some v else v = .null

/-- The value that a cell has for a reader of JSON, and the field that it is for a reader of
comma-separated values. -/
inductive Shows : Cell → Json → Csv.Field → Prop where
  | natural {n : Nat} {v : Json} (htext : (Json.integer n).chars = (toString n).toList)
    (hv : Json.number? (toString n).toList = some v)
    (hfits : n ≤ Json.maxSignificand → v = .integer n) :
    Shows (.natural n) v ⟨false, (toString n).toList⟩
  | flag (b : Bool) : Shows (.flag b) (.bool b) ⟨false, (Json.bool b).chars⟩
  | coordinate {x : Binary64} {v : Json} (hv : ShowsNumber (Cell.rounded Cell.coordinatePlaces x) v) :
    Shows (.coordinate x) v ⟨false, (x.fixed Cell.coordinatePlaces).toList⟩
  | decimal {x : Binary64} {v : Json} (hv : ShowsNumber (Cell.rounded Cell.decimalPlaces x) v) :
    Shows (.decimal x) v ⟨false, (x.fixed Cell.decimalPlaces).toList⟩
  | text (s : String) : Shows (.text s) (.string s) ⟨true, s.toList⟩
  | label {s : String} (htext : (Json.string s).chars = '"' :: s.toList ++ ['"']) :
    Shows (.label s) (.string s) ⟨false, s.toList⟩
  | binary {s : String} (htext : (Json.string s).chars = '"' :: s.toList ++ ['"']) :
    Shows (.binary s) (.string s) ⟨false, s.toList⟩
  | empty : Shows .empty .null ⟨false, []⟩

/-- A column of a report as its readers see it. -/
structure Shown where
  name : String
  cell : Cell
  value : Json
  field : Csv.Field
  shows : Shows cell value field

/-! ## One cell -/

theorem chars_integer (n : Nat) : (Json.integer n).chars = (toString n).toList := by
  rw [Json.chars]
  rfl

theorem isNumber_toString (n : Nat) : Json.IsNumber (toString n).toList := by
  rw [Nat.toString_eq_ofList_toDigits, String.toList_ofList]
  exact Json.isNumber_toDigits n

theorem exists_showsNumber (x : Binary64) :
    ∃ v, ShowsNumber x v ∧ Json.Reads (.real x) v := by
  cases hfinite : x.isFinite with
  | true =>
    have hnumber := Json.isNumber_realChars hfinite
    obtain ⟨v, hv⟩ := Json.exists_number? hnumber
    refine ⟨v, by rw [ShowsNumber, if_pos hfinite]; exact hv, ?_⟩
    exact Json.reads_of_isNumber (by rwa [Json.chars]) (by rwa [Json.chars])
  | false =>
    refine ⟨.null, by rw [ShowsNumber, if_neg (hfinite ▸ Bool.false_ne_true)], ?_⟩
    intro fuel levels rest hrest
    rw [Json.chars, Json.realChars, if_neg (hfinite ▸ Bool.false_ne_true)]
    exact Json.reads_null fuel levels rest hrest

/-- Every plain cell is shown. -/
theorem exists_shows {cell : Cell} (h : PlainCell cell) : ∃ v field, Shows cell v field ∧
    Json.Reads cell.json v ∧ field.WellFormed ∧ cell.csv.toList = field.chars := by
  cases h with
  | natural n =>
    obtain ⟨v, hv⟩ := Json.exists_number? (isNumber_toString n)
    refine ⟨v, _, .natural (chars_integer n) hv fun hn => ?_, Json.reads_of_isNumber ?_ ?_,
      fun _ => (isPlain_toString n).isBare, rfl⟩
    · rw [Nat.toString_eq_ofList_toDigits, String.toList_ofList, Json.number?_toDigits hn] at hv
      exact (Option.some.inj hv).symm
    · rw [Cell.json, chars_integer]
      exact isNumber_toString n
    · rwa [Cell.json, chars_integer]
  | flag b =>
    refine ⟨_, _, .flag b, Json.reads_bool b, fun _ => ?_, ?_⟩
    · have hplain : ∀ b, IsPlain (Json.bool b).chars := by decide
      exact (hplain b).isBare
    · cases b <;> rfl
  | coordinate x =>
    obtain ⟨v, hv, hread⟩ := exists_showsNumber (Cell.rounded Cell.coordinatePlaces x)
    exact ⟨v, _, .coordinate hv, hread, fun _ => (isPlain_fixed _ x).isBare, rfl⟩
  | decimal x =>
    obtain ⟨v, hv, hread⟩ := exists_showsNumber (Cell.rounded Cell.decimalPlaces x)
    exact ⟨v, _, .decimal hv, hread, fun _ => (isPlain_fixed _ x).isBare, rfl⟩
  | text s =>
    refine ⟨_, _, .text s, Json.reads_string s, fun hbare => (nomatch hbare), ?_⟩
    rw [Csv.Field.chars, if_pos rfl, String.ofList_toList]
    rfl
  | label hplain =>
    refine ⟨_, _, .label ?_, Json.reads_string _, fun _ => hplain.isBare, rfl⟩
    rw [Json.chars, hplain.stringChars]
  | binary hplain =>
    refine ⟨_, _, .binary ?_, Json.reads_string _, fun _ => hplain.isBare, rfl⟩
    rw [Json.chars, hplain.stringChars]
  | empty => exact ⟨_, _, .empty, Json.reads_null, fun _ => isPlain_nil.isBare, rfl⟩

/-! ## All cells -/

theorem exists_shown (entries : List (String × Cell)) (h : ∀ entry ∈ entries, PlainCell entry.2) :
    ∃ shown : List Shown, shown.map (fun s => (s.name, s.cell)) = entries ∧
      Json.ReadEach (entries.map fun (name, cell) => (name, cell.json))
        (shown.map fun s => (s.name, s.value)) ∧
      (∀ field ∈ shown.map (·.field), field.WellFormed) ∧
      entries.map (fun (_, cell) => cell.csv.toList) = shown.map fun s => s.field.chars := by
  induction entries with
  | nil => exact ⟨[], rfl, .nil, fun _ hf => absurd hf List.not_mem_nil, rfl⟩
  | cons entry entries ih =>
    obtain ⟨name, cell⟩ := entry
    obtain ⟨hcell, hrest⟩ := List.forall_mem_cons.mp h
    obtain ⟨v, field, hshows, hread, hfield, hchars⟩ := exists_shows hcell
    obtain ⟨shown, hentries, hvalues, hfields, hlines⟩ := ih hrest
    refine ⟨⟨name, cell, v, field, hshows⟩ :: shown, ?_, .cons ⟨rfl, hread⟩ hvalues,
      List.forall_mem_cons.mpr ⟨hfield, hfields⟩, ?_⟩
    · rw [List.map_cons, hentries]
    · rw [List.map_cons, List.map_cons, hlines, ← hchars]

/-! ## The header -/

theorem splitAt_header (t : UInt8) :
    Text.splitAt ',' (header t).toList = (headerNames t).map String.toList := by
  rw [header_eq, String.toList_intercalate]
  refine Text.splitAt_intercalate _ (fun hnil => (nomatch hnil)) ?_
  refine List.forall_mem_map.mpr fun name hname hcomma => ?_
  exact (isPlain_headerNames t name hname).isBare _ hcomma |>.1 rfl

/-- A field of a report is empty if and only if it belongs to a part that the record lacks. -/
theorem empty_mem_reportFields {m : Message} (time : Moment) {name : String} :
    (name, .empty) ∈ m.reportFields time ↔ ∃ p ∈ m.parts, p.cells = none ∧ name ∈ p.names := by
  rw [← m.composed_fields.empty_iff name]
  simp [Message.reportFields]

end Report

/-- Readers of both lines of a report find the columns of its header. All parts of the record are
among them, and those of the parts that it lacks are the empty ones. -/
theorem Message.lines_align (m : Message) (hm : ∀ messageType header,
    m = .unknown messageType header → isKnownType messageType.toNat = false) (time : Moment) :
    ∃ columns : List Report.Shown,
      columns.map (fun c => (c.name, c.cell)) = m.reportFields time ∧
      Json.parse? (m.jsonLine time) = some (.object (columns.map fun c => (c.name, c.value))) ∧
      Csv.fields? (m.csvLine time).toList = some (columns.map (·.field)) ∧
      Text.splitAt ',' (Report.header m.messageType).toList = columns.map (·.name.toList) ∧
      (columns.map (·.name)).Nodup ∧
      (∀ p ∈ m.parts, ∀ entry ∈ p.entries, ∃ c ∈ columns, (c.name, c.cell) = entry) ∧
      ∀ c ∈ columns, c.cell = .empty ↔ ∃ p ∈ m.parts, p.cells = none ∧ c.name ∈ p.names := by
  obtain ⟨columns, hcells, hvalues, hfields, hchars⟩ :=
    Report.exists_shown _ (Report.plainCell_of_mem_reportFields m time)
  have hnames : columns.map (·.name) = Report.headerNames m.messageType := by
    rw [← names_reportFields hm time, ← hcells, List.map_map]
    rfl
  have hnodup := Report.nodup_headerNames m.messageType
  have hne : m.reportFields time ≠ [] := fun hnil => nomatch hnil
  refine ⟨columns, hcells, ?_, ?_, ?_, hnames ▸ hnodup, ?_, ?_⟩
  · rw [jsonLine, reportJson_eq]
    exact Json.parse?_object hvalues fun hnil => hne (List.map_eq_nil_iff.mp hnil)
  · have hline : (m.csvLine time).toList =
        List.intercalate [','] ((columns.map (·.field)).map Csv.Field.chars) := by
      rw [csvLine_eq, String.toList_intercalate, List.map_map, List.map_map]
      exact congrArg (List.intercalate [',']) hchars
    rw [hline]
    refine Csv.fields?_intercalate _ (fun hnil => hne ?_) hfields
    rw [← hcells, List.map_eq_nil_iff.mp hnil]
    rfl
  · rw [Report.splitAt_header, ← hnames, List.map_map]
    rfl
  · intro p hp entry hentry
    have hmem : entry ∈ m.reportFields time :=
      List.mem_append_right _ (m.composed_fields.subset p hp hentry)
    rwa [← hcells, List.mem_map] at hmem
  · intro c hc
    have hmem : (c.name, c.cell) ∈ m.reportFields time := by
      rw [← hcells]
      exact List.mem_map_of_mem hc
    rw [← Report.empty_mem_reportFields time]
    refine ⟨fun hempty => hempty ▸ hmem, fun hempty => ?_⟩
    -- The names are different, so a name has one cell only.
    rw [← names_reportFields hm time] at hnodup
    exact congrArg Prod.snd (List.inj_on_of_nodup_map hnodup hmem hempty rfl)

/-- The equipment of a ship of which all texts hold quotes, commas or line breaks. -/
def awkwardEquipment : Message :=
  .staticDataReport {
    header := { repeatIndicator := 3, mmsi := 983191049 }
    part := .b {
      shipType := 37
      vendorId := "\"a\",\"b\""
      model := 2
      serial := 12345
      callsign := "\r\n,\t\x00"
      reference := .mothership 211234567 } }

/-- The texts are read as they are in both lines, and nothing is read for the name, which comes in
another message. -/
theorem Message.lines_align_awkward :
    ∃ columns : List Report.Shown, ∃ time : Moment,
      Json.parse? (awkwardEquipment.jsonLine time) =
        some (.object (columns.map fun c => (c.name, c.value))) ∧
      Csv.fields? (awkwardEquipment.csvLine time).toList = some (columns.map (·.field)) ∧
      Text.splitAt ',' (Report.header 24).toList = columns.map (·.name.toList) ∧
      columns.length = 16 ∧
      (∃ c ∈ columns, c.name = "vendorId" ∧ c.value = .string "\"a\",\"b\"" ∧
        c.field = ⟨true, ['"', 'a', '"', ',', '"', 'b', '"']⟩) ∧
      (∃ c ∈ columns, c.name = "callsign" ∧ c.value = .string "\r\n,\t\x00" ∧
        c.field = ⟨true, ['\r', '\n', ',', '\t', '\x00']⟩) ∧
      ∃ c ∈ columns, c.name = "vesselName" ∧ c.value = .null ∧ c.field = ⟨false, []⟩ := by
  let time : Moment := ⟨1483228799, 1500000000⟩
  obtain ⟨columns, hcells, hjson, hcsv, hheader, -, hparts, -⟩ :=
    lines_align awkwardEquipment (fun _ _ h => nomatch h) time
  let equipment : Report.Part :=
    ⟨["shipType", "vendorId", "model", "serial", "callsign"], some [
      .natural 37, .text "\"a\",\"b\"", .natural 2, .natural 12345, .text "\r\n,\t\x00"]⟩
  have htext : ∀ name s, (name, .text s) ∈ equipment.entries →
      ∃ c ∈ columns, c.name = name ∧ c.value = .string s ∧ c.field = ⟨true, s.toList⟩ := by
    intro name s hmem
    obtain ⟨⟨name, cell, v, field, hshows⟩, hc, hentry⟩ :=
      hparts equipment (by simp [awkwardEquipment, parts, equipment]) _ hmem
    cases hentry
    cases hshows
    exact ⟨_, hc, rfl, rfl, rfl⟩
  refine ⟨columns, time, hjson, hcsv, hheader, ?_, ?_, ?_, ?_⟩
  · rw [← List.length_map, hcells]
    decide
  · exact htext "vendorId" _ (by simp [Report.Part.entries, equipment])
  · exact htext "callsign" _ (by simp [Report.Part.entries, equipment])
  · obtain ⟨⟨name, cell, v, field, hshows⟩, hc, hentry⟩ :=
      hparts ⟨["vesselName"], none⟩ (by simp [awkwardEquipment, parts]) _ List.mem_cons_self
    cases hentry
    cases hshows
    exact ⟨_, hc, rfl, rfl, rfl⟩

end Transponder

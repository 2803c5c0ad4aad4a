import Transponder.Proofs.Report.Fields

/-!
# The parts of a record

What a record holds decides which fields of its report are empty. Fields that a record has or lacks
together make a `Part`; `Message.parts` reads the parts off a record. The fields of the parts that
are there hold their values, and the fields of the others are the only empty ones of a report
(`Message.composed_fields`).
-/

namespace Transponder

open Report

namespace Report

/-- Fields that a record has or lacks together, with their cells if it has them. -/
structure Part where
  names : List String
  cells : Option (List Cell)

namespace Part

variable {p : Part} {name : String} {α : Type}

/-- What a report shows of a part. -/
def entries (p : Part) : List (String × Cell) :=
  match p.cells with
  | some cells => p.names.zip cells
  | none => p.names.map fun name => (name, .empty)

/-- The parts for the first entries of a list. -/
def numbered (as : List α) (names : List (List String)) (cells : α → List Cell) : List Part :=
  names.zipIdx.map fun (names, i) => ⟨names, as[i]?.map cells⟩

def dimensions (d : Option Dimensions) : Part where
  names := ["toBow", "toStern", "toPort", "toStarboard"]
  cells := d.map fun d => [.natural d.toBow.toNat, .natural d.toStern.toNat,
    .natural d.toPort.toNat, .natural d.toStarboard.toNat]

def application (id : Option ApplicationId) : Part where
  names := ["dac", "fid"]
  cells := id.map fun id => [.natural id.dac.toNat, .natural id.fid.toNat]

/-- The number of a station. -/
def station (name : String) (mmsi : Option Mmsi) : Part where
  names := [name]
  cells := mmsi.map fun mmsi => [.natural mmsi.toNat]

/-- The fields of a part are empty when the part is missing. -/
theorem empty_mem_entries (h : ∀ cells ∈ p.cells, .empty ∉ cells) :
    (name, .empty) ∈ p.entries ↔ p.cells = none ∧ name ∈ p.names := by
  obtain ⟨names, cells⟩ := p
  cases cells with
  | none => simp [entries]
  | some cells =>
    have hcells : .empty ∉ cells := h cells rfl
    simp only [entries, reduceCtorEq, false_and, iff_false]
    exact fun hmem => hcells (List.of_mem_zip hmem).2

end Part

/-- Whether a list of fields shows some parts, and is empty where one of them is missing but
nowhere else. -/
structure Composed (fields : List (String × Cell)) (parts : List Part) : Prop where
  subset : ∀ p ∈ parts, p.entries ⊆ fields
  empty_iff : ∀ name, (name, .empty) ∈ fields ↔ ∃ p ∈ parts, p.cells = none ∧ name ∈ p.names

theorem composed_flatMap {parts : List Part}
    (h : ∀ p ∈ parts, ∀ cells ∈ p.cells, .empty ∉ cells) :
    Composed (parts.flatMap Part.entries) parts where
  subset p hp _ hentry := List.mem_flatMap_of_mem hp hentry
  empty_iff name := by
    simp only [List.mem_flatMap]
    exact exists_congr fun p => and_congr_right fun hp => Part.empty_mem_entries (h p hp)

theorem composed_numbered {α : Type} (as : List α) (names : List (List String))
    {cells : α → List Cell} (h : ∀ a, .empty ∉ cells a) :
    Composed ((Part.numbered as names cells).flatMap Part.entries)
      (Part.numbered as names cells) := by
  refine composed_flatMap (List.forall_mem_map.mpr fun row _ some hsome => ?_)
  obtain ⟨a, -, rfl⟩ := Option.map_eq_some_iff.mp hsome
  exact h a

/-- Each row of the table is put in as a part, however many entries there are. -/
theorem FieldList.list_entries {α ν : Type} {put : FieldList → ν → Option α → FieldList}
    {names : ν → List String} {cells : α → List Cell}
    (hput : ∀ f row a, (put f row a).list = f.list ++ Part.entries ⟨names row, a.map cells⟩)
    (f : FieldList) (table : List ν) (as : List α) :
    (f.entries table as put).list =
      f.list ++ (Part.numbered as (table.map names) cells).flatMap Part.entries := by
  have hfold : ∀ (table : List ν) (f : FieldList) (k : Nat),
      ((table.zipIdx k).foldl (fun f row => put f row.1 as[row.2]?) f).list =
        f.list ++ (((table.map names).zipIdx k).map fun row =>
          (⟨row.1, as[row.2]?.map cells⟩ : Part)).flatMap Part.entries := by
    intro table
    induction table with
    | nil => intro f k; simp
    | cons row table ih =>
      intro f k
      rw [List.zipIdx_cons, List.foldl_cons, ih, hput, List.append_assoc]
      rfl
  exact hfold table f 0

end Report

namespace Message

/-- The parts of a record, of which some may be missing. -/
def parts : Message → List Part
  | binaryAcknowledge m | safetyAcknowledge m =>
    Part.numbered m.acknowledgements [
        ["mmsi1", "sequenceNumber1"],
        ["mmsi2", "sequenceNumber2"],
        ["mmsi3", "sequenceNumber3"],
        ["mmsi4", "sequenceNumber4"]]
      fun a => [.natural a.mmsi.toNat, .natural a.sequenceNumber.toNat]
  | interrogation m => [
      ⟨["messageType1_2", "slotOffset1_2"], m.secondRequest.map fun r =>
        [.natural r.messageType.toNat, .natural r.slotOffset.toNat]⟩,
      ⟨["mmsi2", "messageType2_1", "slotOffset2_1"], m.second.map fun s =>
        [.natural s.mmsi.toNat, .natural s.request.messageType.toNat,
          .natural s.request.slotOffset.toNat]⟩]
  | assignmentModeCommand m =>
    Part.numbered m.assignments [
        ["mmsi1", "offset1", "increment1"],
        ["mmsi2", "offset2", "increment2"]]
      fun a => [.natural a.mmsi.toNat, .natural a.offset.toNat, .natural a.increment.toNat]
  | dataLinkManagement m =>
    Part.numbered m.reservations [
        ["offset1", "number1", "timeout1", "increment1"],
        ["offset2", "number2", "timeout2", "increment2"],
        ["offset3", "number3", "timeout3", "increment3"],
        ["offset4", "number4", "timeout4", "increment4"]]
      fun r => [.natural r.offset.toNat, .natural r.number.toNat, .natural r.timeout.toNat,
        .natural r.increment.toNat]
  | channelManagement m => [
      ⟨["destMmsi1", "destMmsi2"],
        match m.area with
        | .addressed first second => some [.natural first.toNat, .natural second.toNat]
        | .region _ => none⟩,
      ⟨["neLongitude", "neLatitude", "swLongitude", "swLatitude"],
        match m.area with
        | .addressed _ _ => none
        | .region r => some [.coordinate r.neLongitude, .coordinate r.neLatitude,
            .coordinate r.swLongitude, .coordinate r.swLatitude]⟩]
  | staticDataReport ⟨_, .a vesselName⟩ => [
      ⟨["vesselName"], some [.text vesselName]⟩,
      ⟨["shipType", "vendorId", "model", "serial", "callsign"], none⟩,
      .dimensions none,
      .station "mothershipMmsi" none]
  | staticDataReport ⟨_, .b e⟩ => [
      ⟨["vesselName"], none⟩,
      ⟨["shipType", "vendorId", "model", "serial", "callsign"], some [
        .natural e.shipType.toNat, .text e.vendorId, .natural e.model.toNat,
        .natural e.serial.toNat, .text e.callsign]⟩,
      .dimensions (match e.reference with
        | .dimensions size => some size
        | .mothership _ => none),
      .station "mothershipMmsi" (match e.reference with
        | .dimensions _ => none
        | .mothership mmsi => some mmsi)]
  | singleSlotBinary m => [
      .station "destMmsi" m.destination,
      .application m.application]
  | multipleSlotBinary m => [
      .station "destMmsi" m.destination,
      .application m.application]
  | _ => []

/-- A record that holds a list has no fields but those of its parts. -/
theorem fields_acknowledge (m : Acknowledge) :
    (binaryAcknowledge m).fields = (binaryAcknowledge m).parts.flatMap Part.entries := by
  have hput : ∀ (f : FieldList) (row : String × String) (a : Option Acknowledgement),
      (f.optUint row.1 (a.map (·.mmsi.toNat))
        |>.optUint row.2 (a.map (·.sequenceNumber.toNat))).list =
      f.list ++ Part.entries ⟨[row.1, row.2],
        a.map fun a => [.natural a.mmsi.toNat, .natural a.sequenceNumber.toNat]⟩ := by
    intro f row a
    cases a <;> simp [Part.entries]
  exact FieldList.list_entries hput {} _ _

theorem fields_assignmentModeCommand (m : AssignmentModeCommand) :
    (assignmentModeCommand m).fields = (assignmentModeCommand m).parts.flatMap Part.entries := by
  have hput : ∀ (f : FieldList) (row : String × String × String) (a : Option SlotAssignment),
      (f.optUint row.1 (a.map (·.mmsi.toNat))
        |>.optUint row.2.1 (a.map (·.offset.toNat))
        |>.optUint row.2.2 (a.map (·.increment.toNat))).list =
      f.list ++ Part.entries ⟨[row.1, row.2.1, row.2.2], a.map fun a =>
        [.natural a.mmsi.toNat, .natural a.offset.toNat, .natural a.increment.toNat]⟩ := by
    intro f row a
    cases a <;> simp [Part.entries]
  exact FieldList.list_entries hput {} _ _

theorem fields_dataLinkManagement (m : DataLinkManagement) :
    (dataLinkManagement m).fields = (dataLinkManagement m).parts.flatMap Part.entries := by
  have hput : ∀ (f : FieldList) (row : String × String × String × String)
      (r : Option SlotReservation),
      (f.optUint row.1 (r.map (·.offset.toNat))
        |>.optUint row.2.1 (r.map (·.number.toNat))
        |>.optUint row.2.2.1 (r.map (·.timeout.toNat))
        |>.optUint row.2.2.2 (r.map (·.increment.toNat))).list =
      f.list ++ Part.entries ⟨[row.1, row.2.1, row.2.2.1, row.2.2.2], r.map fun r =>
        [.natural r.offset.toNat, .natural r.number.toNat, .natural r.timeout.toNat,
          .natural r.increment.toNat]⟩ := by
    intro f row r
    cases r <;> simp [Part.entries]
  exact FieldList.list_entries hput {} _ _

/-- The fields of a record show its parts, and are empty where one is missing. -/
theorem composed_fields (m : Message) : Composed m.fields m.parts := by
  have hacknowledge : ∀ m, Composed (binaryAcknowledge m).fields (binaryAcknowledge m).parts := by
    intro m
    rw [fields_acknowledge]
    exact composed_numbered _ _ (by simp)
  cases m with
  | binaryAcknowledge m | safetyAcknowledge m => exact hacknowledge m
  | assignmentModeCommand m =>
    rw [fields_assignmentModeCommand]
    exact composed_numbered _ _ (by simp)
  | dataLinkManagement m =>
    rw [fields_dataLinkManagement]
    exact composed_numbered _ _ (by simp)
  -- The other parts are few, so these records are looked at with and without each of them.
  | interrogation m =>
    obtain ⟨header, mmsi, firstRequest, secondRequest, second⟩ := m
    cases secondRequest <;> cases second <;> constructor <;>
      simp [fields, parts, Part.entries, or_assoc]
  | channelManagement m =>
    constructor <;> cases harea : m.area <;> simp [fields, parts, Part.entries, harea]
  | staticDataReport m =>
    obtain ⟨header, part⟩ := m
    cases part with
    | a vesselName =>
      constructor <;>
        simp [fields, staticDataFields, parts, Part.entries, Part.dimensions, Part.station,
          or_assoc]
    | b e =>
      constructor <;> cases hreference : e.reference <;>
        simp [fields, staticDataFields, parts, Part.entries, Part.dimensions, Part.station,
          hreference]
  | singleSlotBinary m | multipleSlotBinary m =>
    constructor <;> cases hd : m.destination <;> cases ha : m.application <;>
      simp [fields, parts, Part.entries, Part.station, Part.application, hd, ha]
  | _ => constructor <;> simp [fields, parts]

end Message

end Transponder

import Transponder.Report.Line

/-!
# The fields of a report

Each step in the making of a report appends its fields to those that are there, also if it has no
value for them (`FieldList.list_push` and its like). So the names of the fields do not depend on
what a record holds: they are those of any record of its type, such as the one with nothing in it
(`Message.names_fields`), and the header of a report lists them (`Message.names_reportFields`).
-/

namespace Transponder

open Report

/-! ## The steps -/

namespace Report.FieldList

variable {α ν : Type} {f : FieldList} {name : String}

@[simp] theorem list_push (cell : Cell) : (f.push name cell).list = f.list ++ [(name, cell)] :=
  rfl

@[simp] theorem list_uint (n : Nat) : (f.uint name n).list = f.list ++ [(name, .natural n)] :=
  rfl

@[simp] theorem list_optUint (n : Option Nat) :
    (f.optUint name n).list = f.list ++ [(name, n.elim .empty .natural)] := by
  cases n <;> rfl

@[simp] theorem list_flag (b : Bool) : (f.flag name b).list = f.list ++ [(name, .flag b)] :=
  rfl

@[simp] theorem list_coord (x : Binary64) :
    (f.coord name x).list = f.list ++ [(name, .coordinate x)] :=
  rfl

@[simp] theorem list_optCoord (x : Option Binary64) :
    (f.optCoord name x).list = f.list ++ [(name, x.elim .empty .coordinate)] := by
  cases x <;> rfl

@[simp] theorem list_decimal (x : Binary64) :
    (f.decimal name x).list = f.list ++ [(name, .decimal x)] :=
  rfl

@[simp] theorem list_text (s : String) : (f.text name s).list = f.list ++ [(name, .text s)] :=
  rfl

@[simp] theorem list_label [Coded α] (a : α) :
    (f.label name a).list = f.list ++ [(name, .label (Coded.label a))] :=
  rfl

@[simp] theorem list_position (longitude latitude : Binary64) :
    (f.position longitude latitude).list =
      f.list ++ [("longitude", .coordinate longitude), ("latitude", .coordinate latitude)] := by
  simp [position]

@[simp] theorem list_dimensions (d : Option Dimensions) :
    (f.dimensions d).list = f.list ++ [
      ("toBow", d.elim .empty fun d => .natural d.toBow.toNat),
      ("toStern", d.elim .empty fun d => .natural d.toStern.toNat),
      ("toPort", d.elim .empty fun d => .natural d.toPort.toNat),
      ("toStarboard", d.elim .empty fun d => .natural d.toStarboard.toNat)] := by
  cases d <;> simp [dimensions]

@[simp] theorem list_application (id : Option ApplicationId) :
    (f.application id).list = f.list ++ [
      ("dac", id.elim .empty fun id => .natural id.dac.toNat),
      ("fid", id.elim .empty fun id => .natural id.fid.toNat)] := by
  cases id <;> simp [application]

@[simp] theorem list_payload (data : Bits) :
    (f.payload data).list =
      f.list ++ [("dataBits", .natural data.length), ("data", .binary data.base64)] := by
  simp [payload]

end Report.FieldList

/-! ## Names -/

namespace Report

/-- The record that gives the names is of the type that it is asked for. -/
theorem messageType_template (t : UInt8) : (template t).messageType = t := by
  have hall : ∀ n < 256, (template (.ofNat n)).messageType = .ofNat n := by decide +kernel
  have h := hall t.toNat t.toNat_lt
  rwa [UInt8.ofNat_toNat] at h

theorem template_of_not_isKnownType {t : UInt8} (h : Message.isKnownType t.toNat = false) :
    template t = .unknown t {} := by
  have hrange : t.toNat = 0 ∨ 27 < t.toNat := by
    rw [Message.isKnownType, Bool.and_eq_false_iff, decide_eq_false_iff_not,
      decide_eq_false_iff_not, Message.maxKnownType] at h
    omega
  unfold template
  split <;> first | rfl | omega

end Report

namespace Message

/-- The fields of a record have the names of those of a record of its type with nothing in it. -/
theorem names_fields {m : Message} (hm : ∀ messageType header,
    m = .unknown messageType header → isKnownType messageType.toNat = false) :
    m.fields.map (·.1) = (template m.messageType).fields.map (·.1) := by
  cases m with
  | unknown t header =>
    rw [Message.messageType, template_of_not_isKnownType (hm t header rfl)]
    rfl
  | staticDataReport m =>
    obtain ⟨header, part⟩ := m
    cases part with
    | a vesselName => rfl
    | b equipment => simp [fields, Message.messageType, template, staticDataFields]
  | _ =>
    simp [fields, Message.messageType, template, FieldList.entries, acknowledgementNames,
      assignmentNames, reservationNames]

/-! ## A whole report -/

/-- The names and values of a report, with those that the reports of all types begin with. -/
def reportFields (m : Message) (time : Moment) : List (String × Cell) := [
    ("type", .natural m.messageType.toNat),
    ("repeatIndicator", .natural m.header.repeatIndicator.toNat),
    ("mmsi", .natural m.header.mmsi.toNat),
    ("timestamp", .label time.render)] ++
  m.fields

theorem reportJson_eq (m : Message) (time : Moment) : m.reportJson time =
    .object ((m.reportFields time).map fun (name, cell) => (name, cell.json)) :=
  rfl

theorem csvLine_eq (m : Message) (time : Moment) : m.csvLine time =
    String.intercalate "," ((m.reportFields time).map fun (_, cell) => cell.csv) :=
  rfl

end Message

namespace Report

/-- The names in the header of a type. -/
def headerNames (t : UInt8) : List String :=
  ["type", "repeatIndicator", "mmsi", "timestamp"] ++ (template t).fields.map (·.1)

theorem header_eq (t : UInt8) : header t = String.intercalate "," (headerNames t) :=
  rfl

/-- What holds of the headers of the first types holds of all: a type without a layout has the header
of type 0. -/
theorem forall_headerNames {P : List String → Prop} (h : ∀ n < 28, P (headerNames (.ofNat n)))
    (t : UInt8) : P (headerNames t) := by
  cases ht : Message.isKnownType t.toNat with
  | true =>
    rw [Message.isKnownType, Bool.and_eq_true, decide_eq_true_eq, decide_eq_true_eq,
      Message.maxKnownType] at ht
    have hname := h t.toNat (by omega)
    rwa [UInt8.ofNat_toNat] at hname
  | false =>
    have hnames : headerNames t = headerNames 0 := by
      rw [headerNames, template_of_not_isKnownType ht]
      rfl
    rw [hnames]
    exact h 0 (by decide)

/-- The names in a header are different. -/
theorem nodup_headerNames (t : UInt8) : (headerNames t).Nodup :=
  forall_headerNames (P := List.Nodup) (by decide +kernel) t

end Report

/-- The names in a report are those in the header of its type. -/
theorem Message.names_reportFields {m : Message} (hm : ∀ messageType header,
    m = .unknown messageType header → isKnownType messageType.toNat = false) (time : Moment) :
    (m.reportFields time).map (·.1) = Report.headerNames m.messageType := by
  rw [reportFields, List.map_append, names_fields hm]
  rfl

end Transponder

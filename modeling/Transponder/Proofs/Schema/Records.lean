import Transponder.Proofs.Schema.Payload
import Transponder.Schema.Link
import Transponder.Schema.Motion
import Transponder.Schema.Telegram
import Transponder.Schema.Vessel

/-!
# The schema of every record keeps it

Every schema of a record keeps its records, as long as the numbers in them are finite and opaque data
has a length that fits into a word. The names of the fields of a record differ, and the tag of a part
of several kinds is not among the names beside it, so nothing is hidden by anything else.
-/

namespace Transponder

/-- Numbers that have a form in JSON. -/
def AreFinite (xs : List Binary64) : Prop :=
  ∀ x ∈ xs, x.isFinite = true

theorem areFinite_cons {x : Binary64} {xs : List Binary64} :
    AreFinite (x :: xs) ↔ x.isFinite = true ∧ AreFinite xs :=
  List.forall_mem_cons

/-! ## The numbers in a record -/

def PositionReport.reals (m : PositionReport) : List Binary64 :=
  [m.rateOfTurn, m.speedOverGround, m.longitude, m.latitude, m.courseOverGround]

def BaseStationReport.reals (m : BaseStationReport) : List Binary64 :=
  [m.longitude, m.latitude]

def SarAircraftReport.reals (m : SarAircraftReport) : List Binary64 :=
  [m.longitude, m.latitude, m.courseOverGround]

def ClassBPositionReport.reals (m : ClassBPositionReport) : List Binary64 :=
  [m.speedOverGround, m.longitude, m.latitude, m.courseOverGround]

def ExtendedClassBReport.reals (m : ExtendedClassBReport) : List Binary64 :=
  [m.speedOverGround, m.longitude, m.latitude, m.courseOverGround]

def LongRangeReport.reals (m : LongRangeReport) : List Binary64 :=
  [m.longitude, m.latitude]

def AidToNavigationReport.reals (m : AidToNavigationReport) : List Binary64 :=
  [m.longitude, m.latitude]

def DgnssBroadcast.reals (m : DgnssBroadcast) : List Binary64 :=
  [m.longitude, m.latitude]

def Region.reals (corners : Region) : List Binary64 :=
  [corners.neLongitude, corners.neLatitude, corners.swLongitude, corners.swLatitude]

def ChannelArea.reals : ChannelArea → List Binary64
  | addressed _ _ => []
  | region corners => corners.reals

namespace Schema

variable {σ : Type} {s : σ} {name : String}

/-! ## Fields -/

theorem word8_field {get : σ → UInt8} : (field name word8 get).Keeps [name] s (get s) :=
  (word8_keeps _).field

theorem word16_field {get : σ → UInt16} : (field name word16 get).Keeps [name] s (get s) :=
  (word16_keeps _).field

theorem word32_field {get : σ → UInt32} : (field name word32 get).Keeps [name] s (get s) :=
  (word32_keeps _).field

theorem bool_field {get : σ → Bool} : (field name bool get).Keeps [name] s (get s) :=
  (bool_keeps _).field

theorem string_field {get : σ → String} : (field name string get).Keeps [name] s (get s) :=
  (string_keeps _).field

theorem real_field (get : σ → Binary64) (h : (get s).isFinite = true) :
    (field name real get).Keeps [name] s (get s) :=
  (real_keeps h).field

theorem header_keeps (s : Header) : header.Keeps s :=
  record_keeps (word8_field.map _ |>.seq word32_field) (by decide)

theorem header_field {get : σ → Header} : (field name header get).Keeps [name] s (get s) :=
  (header_keeps _).field

theorem dimensions_keeps (s : Dimensions) : dimensions.Keeps s :=
  record_keeps (word16_field.map _ |>.seq word16_field |>.seq word8_field |>.seq word8_field)
    (by decide)

theorem dimensions_field {get : σ → Dimensions} :
    (field name dimensions get).Keeps [name] s (get s) :=
  (dimensions_keeps _).field

/-! ## Where a station is -/

theorem positionReport_keeps {m : PositionReport} (h : AreFinite m.reals) :
    positionReport.Keeps m := by
  simp only [PositionReport.reals, areFinite_cons] at h
  obtain ⟨hturn, hspeed, hlongitude, hlatitude, hcourse, -⟩ := h
  refine record_keeps (header_field.map _ |>.seq (status_keeps _).field
    |>.seq (real_keeps hturn).field |>.seq (real_keeps hspeed).field |>.seq bool_field
    |>.seq (real_keeps hlongitude).field |>.seq (real_keeps hlatitude).field
    |>.seq (real_keeps hcourse).field |>.seq word16_field |>.seq word8_field
    |>.seq (maneuver_keeps _).field |>.seq bool_field |>.seq word32_field) ?_
  decide

theorem baseStationReport_keeps {m : BaseStationReport} (h : AreFinite m.reals) :
    baseStationReport.Keeps m := by
  simp only [BaseStationReport.reals, areFinite_cons] at h
  obtain ⟨hlongitude, hlatitude, -⟩ := h
  refine record_keeps (header_field.map _ |>.seq word16_field |>.seq word8_field
    |>.seq word8_field |>.seq word8_field |>.seq word8_field |>.seq word8_field |>.seq bool_field
    |>.seq (real_keeps hlongitude).field |>.seq (real_keeps hlatitude).field
    |>.seq (device_keeps _).field |>.seq bool_field |>.seq word32_field) ?_
  decide

theorem sarAircraftReport_keeps {m : SarAircraftReport} (h : AreFinite m.reals) :
    sarAircraftReport.Keeps m := by
  simp only [SarAircraftReport.reals, areFinite_cons] at h
  obtain ⟨hlongitude, hlatitude, hcourse, -⟩ := h
  refine record_keeps (header_field.map _ |>.seq word16_field |>.seq word16_field
    |>.seq bool_field |>.seq (real_keeps hlongitude).field |>.seq (real_keeps hlatitude).field
    |>.seq (real_keeps hcourse).field |>.seq word8_field |>.seq word8_field |>.seq bool_field
    |>.seq bool_field |>.seq bool_field |>.seq word32_field) ?_
  decide

theorem classBPositionReport_keeps {m : ClassBPositionReport} (h : AreFinite m.reals) :
    classBPositionReport.Keeps m := by
  simp only [ClassBPositionReport.reals, areFinite_cons] at h
  obtain ⟨hspeed, hlongitude, hlatitude, hcourse, -⟩ := h
  refine record_keeps (header_field.map _ |>.seq word8_field |>.seq (real_keeps hspeed).field
    |>.seq bool_field |>.seq (real_keeps hlongitude).field |>.seq (real_keeps hlatitude).field
    |>.seq (real_keeps hcourse).field |>.seq word16_field |>.seq word8_field |>.seq word8_field
    |>.seq bool_field |>.seq bool_field |>.seq bool_field |>.seq bool_field |>.seq bool_field
    |>.seq bool_field |>.seq bool_field |>.seq word32_field) ?_
  decide

theorem extendedClassBReport_keeps {m : ExtendedClassBReport} (h : AreFinite m.reals) :
    extendedClassBReport.Keeps m := by
  simp only [ExtendedClassBReport.reals, areFinite_cons] at h
  obtain ⟨hspeed, hlongitude, hlatitude, hcourse, -⟩ := h
  refine record_keeps (header_field.map _ |>.seq word8_field |>.seq (real_keeps hspeed).field
    |>.seq bool_field |>.seq (real_keeps hlongitude).field |>.seq (real_keeps hlatitude).field
    |>.seq (real_keeps hcourse).field |>.seq word16_field |>.seq word8_field |>.seq word8_field
    |>.seq string_field |>.seq word8_field |>.seq dimensions_field |>.seq (device_keeps _).field
    |>.seq bool_field |>.seq bool_field |>.seq bool_field) ?_
  decide

theorem longRangeReport_keeps {m : LongRangeReport} (h : AreFinite m.reals) :
    longRangeReport.Keeps m := by
  simp only [LongRangeReport.reals, areFinite_cons] at h
  obtain ⟨hlongitude, hlatitude, -⟩ := h
  refine record_keeps (header_field.map _ |>.seq bool_field |>.seq bool_field
    |>.seq (status_keeps _).field |>.seq (real_keeps hlongitude).field
    |>.seq (real_keeps hlatitude).field |>.seq word8_field |>.seq word16_field
    |>.seq bool_field) ?_
  decide

/-! ## What a station is -/

theorem arrival_keeps (s : Arrival) : arrival.Keeps s :=
  record_keeps (word8_field.map _ |>.seq word8_field |>.seq word8_field |>.seq word8_field)
    (by decide)

theorem staticVoyageData_keeps {m : StaticVoyageData} (h : m.draught.isFinite = true) :
    staticVoyageData.Keeps m := by
  refine record_keeps (header_field.map _ |>.seq word8_field |>.seq word32_field
    |>.seq string_field |>.seq string_field |>.seq word8_field |>.seq dimensions_field
    |>.seq (device_keeps _).field |>.seq (arrival_keeps _).field |>.seq (real_keeps h).field
    |>.seq string_field |>.seq bool_field) ?_
  decide

theorem aidToNavigationReport_keeps {m : AidToNavigationReport} (h : AreFinite m.reals) :
    aidToNavigationReport.Keeps m := by
  simp only [AidToNavigationReport.reals, areFinite_cons] at h
  obtain ⟨hlongitude, hlatitude, -⟩ := h
  refine record_keeps (header_field.map _ |>.seq word8_field |>.seq string_field
    |>.seq bool_field |>.seq (real_keeps hlongitude).field |>.seq (real_keeps hlatitude).field
    |>.seq dimensions_field |>.seq (device_keeps _).field |>.seq word8_field |>.seq bool_field
    |>.seq word8_field |>.seq bool_field |>.seq bool_field |>.seq bool_field
    |>.seq string_field) ?_
  decide

theorem shipReference_keeps (s : ShipReference) : shipReference.Keeps s := by
  have hrepresentable : ∀ {kind : String} {v : Json}, v.isRepresentable = true →
      (Json.object [("kind", .string kind), ("value", v)]).isRepresentable = true := fun h =>
    representable_entries (List.forall_mem_cons.mpr ⟨rfl, List.forall_mem_singleton.mpr h⟩)
  cases s with
  | dimensions size =>
    have hsize := dimensions_keeps size
    refine ⟨hrepresentable hsize.representable, fun r j hj => ?_⟩
    obtain ⟨r', k, hlabel, hk⟩ := Json.labelled?_of_rearranged hj (by decide) hsize.representable
      ["dimensions", "mothership"] r
    have hread := hsize.reads r' k hk
    simp only [shipReference, hlabel, Option.bind_eq_bind, Option.bind_some, hread, Option.map_some]
  | mothership mmsi =>
    have hmmsi := word32_keeps mmsi
    refine ⟨hrepresentable hmmsi.representable, fun r j hj => ?_⟩
    obtain ⟨r', k, hlabel, hk⟩ := Json.labelled?_of_rearranged hj (by decide) hmmsi.representable
      ["dimensions", "mothership"] r
    have hread := hmmsi.reads r' k hk
    simp only [shipReference, hlabel, Option.bind_eq_bind, Option.bind_some, hread, Option.map_some]

theorem vesselNamePart_keeps (vesselName : String) :
    vesselNamePart.Keeps ["vessel_name"] vesselName vesselName :=
  (string_keeps (id vesselName)).field

theorem equipment_keeps (s : Equipment) : equipment.Keeps
    ["ship_type", "vendor_id", "model", "serial", "callsign", "reference"] s s :=
  word8_field.map _ |>.seq string_field |>.seq word8_field |>.seq word32_field
    |>.seq string_field |>.seq (shipReference_keeps _).field

/-- Fields beside a tag that none of them is named like. -/
theorem tagged_reads {α : Type} {fs : Fields α α} {names : List String} {a : α} {tag kind : String}
    {j : Json} (h : fs.Keeps names a a) (hnames : (tag :: names).Nodup)
    (hj : Json.Rearranged (.object ((tag, .string kind) :: fs.entries a)) j) (tags : List String)
    (r : Reading) : ∃ content, j.tagged? tag tags r = some (kind, content) ∧
      (record fs).readAs .kept content = some a := by
  rw [← h.map_fst] at hnames
  obtain ⟨rest, htag, hrest⟩ := Json.tagged?_of_rearranged hj hnames h.representable tags r
  exact ⟨_, htag, h.reads .kept rest hrest⟩

theorem tagged_representable {α : Type} {fs : Fields α α} {names : List String} {a : α}
    {tag kind : String} (h : fs.Keeps names a a) :
    (Json.object ((tag, .string kind) :: fs.entries a)).isRepresentable = true :=
  representable_entries (List.forall_mem_cons.mpr ⟨rfl, h.representable⟩)

theorem staticDataPart_keeps (s : StaticDataPart) : staticDataPart.Keeps s := by
  cases s with
  | a vesselName =>
    have hname := vesselNamePart_keeps vesselName
    refine ⟨tagged_representable hname, fun r j hj => ?_⟩
    obtain ⟨content, htag, hread⟩ := tagged_reads hname (by decide) hj ["A", "B"] r
    simp only [staticDataPart, htag, Option.bind_eq_bind, Option.bind_some, hread, Option.map_some]
  | b equip =>
    have hequip := equipment_keeps equip
    refine ⟨tagged_representable hequip, fun r j hj => ?_⟩
    obtain ⟨content, htag, hread⟩ := tagged_reads hequip (by decide) hj ["A", "B"] r
    simp only [staticDataPart, htag, Option.bind_eq_bind, Option.bind_some, hread, Option.map_some]

theorem staticDataReport_keeps (m : StaticDataReport) : staticDataReport.Keeps m :=
  record_keeps (header_field.map _ |>.seq (staticDataPart_keeps _).field) (by decide)

/-! ## What a station sends to others -/

theorem applicationId_keeps (s : ApplicationId) : applicationId.Keeps s :=
  record_keeps (word16_field.map _ |>.seq word8_field) (by decide)

theorem applicationId_field {get : σ → ApplicationId} :
    (field name applicationId get).Keeps [name] s (get s) :=
  (applicationId_keeps _).field

theorem addressedBinary_keeps {m : AddressedBinary} (h : m.data.length < UInt64.size) :
    addressedBinary.Keeps m :=
  record_keeps (header_field.map _ |>.seq word8_field |>.seq word32_field |>.seq bool_field
    |>.seq applicationId_field |>.seq (bits_keeps h).field) (by decide)

theorem acknowledgement_keeps (s : Acknowledgement) : acknowledgement.Keeps s :=
  record_keeps (word32_field.map _ |>.seq word8_field) (by decide)

theorem acknowledge_keeps (m : Acknowledge) : acknowledge.Keeps m :=
  record_keeps (header_field.map _ |>.seq (list_keeps acknowledgement_keeps).field) (by decide)

theorem binaryBroadcast_keeps {m : BinaryBroadcast} (h : m.data.length < UInt64.size) :
    binaryBroadcast.Keeps m :=
  record_keeps (header_field.map _ |>.seq applicationId_field |>.seq (bits_keeps h).field)
    (by decide)

theorem addressedSafety_keeps (m : AddressedSafety) : addressedSafety.Keeps m :=
  record_keeps (header_field.map _ |>.seq word8_field |>.seq word32_field |>.seq bool_field
    |>.seq string_field) (by decide)

theorem safetyBroadcast_keeps (m : SafetyBroadcast) : safetyBroadcast.Keeps m :=
  record_keeps (header_field.map _ |>.seq string_field) (by decide)

theorem dgnssBroadcast_keeps {m : DgnssBroadcast} (h : AreFinite m.reals)
    (hdata : m.data.length < UInt64.size) : dgnssBroadcast.Keeps m := by
  simp only [DgnssBroadcast.reals, areFinite_cons] at h
  obtain ⟨hlongitude, hlatitude, -⟩ := h
  refine record_keeps (header_field.map _ |>.seq (real_keeps hlongitude).field
    |>.seq (real_keeps hlatitude).field |>.seq (bits_keeps hdata).field) ?_
  decide

theorem ne_null_of_word32 (n : UInt32) (j : Json) (h : Json.Rearranged (word32.write n) j) :
    j ≠ .null := by
  rintro rfl
  cases h

theorem recipient_field {get : σ → Option Mmsi} :
    (field name (optional word32) get).Keeps [name] s (get s) :=
  (optional_keeps word32_keeps ne_null_of_word32).field

theorem optionalApplication_field {get : σ → Option ApplicationId} :
    (field name (optional applicationId) get).Keeps [name] s (get s) :=
  (optional_keeps applicationId_keeps fun _ _ => ne_null_of_object).field

theorem singleSlotBinary_keeps {m : SingleSlotBinary} (h : m.data.length < UInt64.size) :
    singleSlotBinary.Keeps m :=
  record_keeps (header_field.map _ |>.seq recipient_field |>.seq optionalApplication_field
    |>.seq (bits_keeps h).field) (by decide)

theorem multipleSlotBinary_keeps {m : MultipleSlotBinary} (h : m.data.length < UInt64.size) :
    multipleSlotBinary.Keeps m :=
  record_keeps (header_field.map _ |>.seq recipient_field |>.seq optionalApplication_field
    |>.seq (bits_keeps h).field |>.seq word32_field) (by decide)

/-! ## How the radio link is run -/

theorem utcInquiry_keeps (m : UtcInquiry) : utcInquiry.Keeps m :=
  record_keeps (header_field.map _ |>.seq word32_field) (by decide)

theorem slotRequest_keeps (s : SlotRequest) : slotRequest.Keeps s :=
  record_keeps (word8_field.map _ |>.seq word16_field) (by decide)

theorem secondInterrogation_keeps (s : SecondInterrogation) : secondInterrogation.Keeps s :=
  record_keeps (word32_field.map _ |>.seq (slotRequest_keeps _).field) (by decide)

theorem interrogation_keeps (m : Interrogation) : interrogation.Keeps m :=
  record_keeps (header_field.map _ |>.seq word32_field |>.seq (slotRequest_keeps _).field
    |>.seq (optional_keeps slotRequest_keeps fun _ _ => ne_null_of_object).field
    |>.seq (optional_keeps secondInterrogation_keeps fun _ _ => ne_null_of_object).field)
    (by decide)

theorem slotAssignment_keeps (s : SlotAssignment) : slotAssignment.Keeps s :=
  record_keeps (word32_field.map _ |>.seq word16_field |>.seq word16_field) (by decide)

theorem assignmentModeCommand_keeps (m : AssignmentModeCommand) : assignmentModeCommand.Keeps m :=
  record_keeps (header_field.map _ |>.seq (list_keeps slotAssignment_keeps).field) (by decide)

theorem slotReservation_keeps (s : SlotReservation) : slotReservation.Keeps s :=
  record_keeps (word16_field.map _ |>.seq word8_field |>.seq word8_field |>.seq word16_field)
    (by decide)

theorem dataLinkManagement_keeps (m : DataLinkManagement) : dataLinkManagement.Keeps m :=
  record_keeps (header_field.map _ |>.seq (list_keeps slotReservation_keeps).field) (by decide)

theorem region_keeps (get : σ → Region) (h : AreFinite (get s).reals) : (region get).Keeps
    ["ne_longitude", "ne_latitude", "sw_longitude", "sw_latitude"] s (get s) := by
  simp only [Region.reals, areFinite_cons] at h
  obtain ⟨hneLongitude, hneLatitude, hswLongitude, hswLatitude, -⟩ := h
  exact (real_field (fun s => (get s).neLongitude) hneLongitude).map _
    |>.seq (real_field (fun s => (get s).neLatitude) hneLatitude)
    |>.seq (real_field (fun s => (get s).swLongitude) hswLongitude)
    |>.seq (real_field (fun s => (get s).swLatitude) hswLatitude)

theorem addressees_keeps (s : Mmsi × Mmsi) :
    addressees.Keeps ["dest_mmsi_1", "dest_mmsi_2"] s s :=
  word32_field.map _ |>.seq word32_field

theorem channelArea_keeps {s : ChannelArea} (h : AreFinite s.reals) : channelArea.Keeps s := by
  cases s with
  | addressed a b =>
    have haddressees := addressees_keeps (a, b)
    refine ⟨tagged_representable haddressees, fun r j hj => ?_⟩
    obtain ⟨content, htag, hread⟩ :=
      tagged_reads haddressees (by decide) hj ["addressed", "region"] r
    simp only [channelArea, htag, Option.bind_eq_bind, Option.bind_some, hread, Option.map_some]
  | region corners =>
    have hregion : (region id).Keeps _ corners corners := region_keeps id h
    refine ⟨tagged_representable hregion, fun r j hj => ?_⟩
    obtain ⟨content, htag, hread⟩ := tagged_reads hregion (by decide) hj ["addressed", "region"] r
    simp only [channelArea, htag, Option.bind_eq_bind, Option.bind_some, hread, Option.map_some]

theorem channelManagement_keeps {m : ChannelManagement} (h : AreFinite m.area.reals) :
    channelManagement.Keeps m := by
  refine record_keeps (header_field.map _ |>.seq word16_field |>.seq word16_field
    |>.seq word8_field |>.seq bool_field |>.seq (channelArea_keeps h).field |>.seq bool_field
    |>.seq bool_field |>.seq word8_field) ?_
  decide

theorem groupAssignmentCommand_keeps {m : GroupAssignmentCommand} (h : AreFinite m.region.reals) :
    groupAssignmentCommand.Keeps m := by
  refine record_keeps (header_field.map _ |>.seq (region_keeps _ h) |>.seq word8_field
    |>.seq word8_field |>.seq word8_field |>.seq word8_field |>.seq word8_field) ?_
  decide

end Schema

end Transponder

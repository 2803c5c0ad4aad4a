import Transponder.Proofs.Schema.Records
import Transponder.Schema.Message

/-!
# Messages go through JSON as they are

The JSON value of a message gives the message back, whatever its type, its parts and its lists
(`interchange_lossless`). The value may have been rearranged on its way, at any depth: the record may
stand in front of the type, and a tag behind what it tells apart. Only numbers that are not finite
have no value of their own.
-/

namespace Transponder.Message

open Schema
open Json (Rearranged)

/-- The numbers in a message that are no integers. -/
def reals : Message → List Binary64
  | positionReportScheduled m | positionReportAssigned m | positionReportInterrogated m => m.reals
  | baseStationReport m | utcDateResponse m => m.reals
  | staticVoyageData m => [m.draught]
  | sarAircraftReport m => m.reals
  | dgnssBroadcast m => m.reals
  | classBPositionReport m => m.reals
  | extendedClassBReport m => m.reals
  | aidToNavigationReport m => m.reals
  | channelManagement m => m.area.reals
  | groupAssignmentCommand m => m.region.reals
  | longRangeReport m => m.reals
  | _ => []

/-- The opaque data in a message. -/
def payloads : Message → List Bits
  | addressedBinary m => [m.data]
  | binaryBroadcast m => [m.data]
  | dgnssBroadcast m => [m.data]
  | singleSlotBinary m => [m.data]
  | multipleSlotBinary m => [m.data]
  | _ => []

/-- The record of a message is read back as the message. -/
structure KeepsContent (m : Message) : Prop where
  representable : m.content.2.isRepresentable = true
  reads : ∀ r j, Rearranged m.content.2 j → ofContent? m.content.1 r j = some m

variable {α : Type} {m : Message} {schema : Schema α} {a : α} {name : String}

/-- A record that its schema keeps, under the name by which that schema is chosen. -/
theorem KeepsContent.of_keeps (h : schema.Keeps a) (make : α → Message)
    (hcontent : (make a).content = (name, schema.write a))
    (hread : ∀ r j, ofContent? name r j = (schema.readAs r j).map make) :
    (make a).KeepsContent := by
  refine ⟨by rw [hcontent]; exact h.representable, fun r j hj => ?_⟩
  rw [hcontent] at hj ⊢
  rw [hread, h.reads r j hj, Option.map_some]

theorem unknownMessage_keeps (s : UInt8 × Header) : unknownMessage.Keeps s :=
  object_keeps (word8_field.map _ |>.seq header_field) (by decide)

/-- Every name of a type chooses the schema that wrote the record. -/
theorem keepsContent (m : Message) (hreals : AreFinite m.reals)
    (hdata : ∀ b ∈ m.payloads, b.length < UInt64.size) : m.KeepsContent := by
  cases m with
  | positionReportScheduled m =>
    exact .of_keeps (positionReport_keeps hreals) positionReportScheduled rfl fun _ _ => rfl
  | positionReportAssigned m =>
    exact .of_keeps (positionReport_keeps hreals) positionReportAssigned rfl fun _ _ => rfl
  | positionReportInterrogated m =>
    exact .of_keeps (positionReport_keeps hreals) positionReportInterrogated rfl fun _ _ => rfl
  | baseStationReport m =>
    exact .of_keeps (baseStationReport_keeps hreals) baseStationReport rfl fun _ _ => rfl
  | staticVoyageData m =>
    have hdraught := hreals m.draught List.mem_cons_self
    exact .of_keeps (staticVoyageData_keeps hdraught) staticVoyageData rfl fun _ _ => rfl
  | addressedBinary m =>
    have hlength := hdata m.data List.mem_cons_self
    exact .of_keeps (addressedBinary_keeps hlength) addressedBinary rfl fun _ _ => rfl
  | binaryAcknowledge m =>
    exact .of_keeps (acknowledge_keeps m) binaryAcknowledge rfl fun _ _ => rfl
  | binaryBroadcast m =>
    have hlength := hdata m.data List.mem_cons_self
    exact .of_keeps (binaryBroadcast_keeps hlength) binaryBroadcast rfl fun _ _ => rfl
  | sarAircraftReport m =>
    exact .of_keeps (sarAircraftReport_keeps hreals) sarAircraftReport rfl fun _ _ => rfl
  | utcInquiry m => exact .of_keeps (utcInquiry_keeps m) utcInquiry rfl fun _ _ => rfl
  | utcDateResponse m =>
    exact .of_keeps (baseStationReport_keeps hreals) utcDateResponse rfl fun _ _ => rfl
  | addressedSafety m =>
    exact .of_keeps (addressedSafety_keeps m) addressedSafety rfl fun _ _ => rfl
  | safetyAcknowledge m =>
    exact .of_keeps (acknowledge_keeps m) safetyAcknowledge rfl fun _ _ => rfl
  | safetyBroadcast m =>
    exact .of_keeps (safetyBroadcast_keeps m) safetyBroadcast rfl fun _ _ => rfl
  | interrogation m => exact .of_keeps (interrogation_keeps m) interrogation rfl fun _ _ => rfl
  | assignmentModeCommand m =>
    exact .of_keeps (assignmentModeCommand_keeps m) assignmentModeCommand rfl fun _ _ => rfl
  | dgnssBroadcast m =>
    have hlength := hdata m.data List.mem_cons_self
    exact .of_keeps (dgnssBroadcast_keeps hreals hlength) dgnssBroadcast rfl fun _ _ => rfl
  | classBPositionReport m =>
    exact .of_keeps (classBPositionReport_keeps hreals) classBPositionReport rfl fun _ _ => rfl
  | extendedClassBReport m =>
    exact .of_keeps (extendedClassBReport_keeps hreals) extendedClassBReport rfl fun _ _ => rfl
  | dataLinkManagement m =>
    exact .of_keeps (dataLinkManagement_keeps m) dataLinkManagement rfl fun _ _ => rfl
  | aidToNavigationReport m =>
    exact .of_keeps (aidToNavigationReport_keeps hreals) aidToNavigationReport rfl fun _ _ => rfl
  | channelManagement m =>
    exact .of_keeps (channelManagement_keeps hreals) channelManagement rfl fun _ _ => rfl
  | groupAssignmentCommand m =>
    exact .of_keeps (groupAssignmentCommand_keeps hreals) groupAssignmentCommand rfl fun _ _ => rfl
  | staticDataReport m =>
    exact .of_keeps (staticDataReport_keeps m) staticDataReport rfl fun _ _ => rfl
  | singleSlotBinary m =>
    have hlength := hdata m.data List.mem_cons_self
    exact .of_keeps (singleSlotBinary_keeps hlength) singleSlotBinary rfl fun _ _ => rfl
  | multipleSlotBinary m =>
    have hlength := hdata m.data List.mem_cons_self
    exact .of_keeps (multipleSlotBinary_keeps hlength) multipleSlotBinary rfl fun _ _ => rfl
  | longRangeReport m =>
    exact .of_keeps (longRangeReport_keeps hreals) longRangeReport rfl fun _ _ => rfl
  | unknown t h =>
    exact .of_keeps (unknownMessage_keeps (t, h)) (fun s => unknown s.1 s.2) rfl fun _ _ => rfl

/-- A record that is read back is read back beside the name of its type. -/
theorem KeepsContent.ofJson?_of_rearranged (h : m.KeepsContent) {j : Json} (hj : Rearranged m.toJson j) :
    ofJson? j = some m := by
  obtain ⟨r, k, hlabel, hk⟩ :=
    Json.labelled?_of_rearranged hj (by decide) h.representable [] .direct
  have hread := h.reads r k hk
  simp only [Message.ofJson?, hlabel, Option.bind_eq_bind, Option.bind_some, hread]

/-- The JSON value of a message gives the message back, and so does every rearrangement of it. So no
two messages share a value, not even up to the order of entries. Data is counted in words. -/
theorem interchange_lossless (m : Message) (hreals : AreFinite m.reals)
    (hdata : ∀ b ∈ m.payloads, b.length < UInt64.size) :
    ofJson? m.toJson = some m ∧ (∀ j, Rearranged m.toJson j → ofJson? j = some m) ∧
      ∀ m' : Message, AreFinite m'.reals → (∀ b ∈ m'.payloads, b.length < UInt64.size) →
        m ≠ m' → ¬ Rearranged m.toJson m'.toJson := by
  have hkeeps := keepsContent m hreals hdata
  refine ⟨hkeeps.ofJson?_of_rearranged (.refl _), fun j => hkeeps.ofJson?_of_rearranged, ?_⟩
  intro m' hreals' hdata' hne hsame
  have hread := hkeeps.ofJson?_of_rearranged hsame
  have hread' := (keepsContent m' hreals' hdata').ofJson?_of_rearranged (.refl _)
  exact hne (Option.some.inj (hread.symm.trans hread'))

/-- Corrections with three bits of data, which reach the reader with every object turned around: the
record in front of the type, the base64 text in front of the count. -/
theorem interchange_lossless_turnedAround :
    let m : Message := .dgnssBroadcast ⟨⟨1, 2320001⟩, -1, 51, .ofList [true, false, true]⟩
    let j : Json := .object [
      ("data", .object [
        ("data", .object [("data", .string "oA=="), ("bits", .integer 3)]),
        ("latitude", .real 51), ("longitude", .real (-1)),
        ("header", .object [("mmsi", .integer 2320001), ("repeat_indicator", .integer 1)])]),
      ("type", .string "DgnssBroadcast")]
    ofJson? m.toJson = some m ∧ ofJson? j = some m ∧
      ¬ Rearranged m.toJson (dgnssBroadcast ⟨⟨1, 2320001⟩, -1, 51, .ofList [true, false]⟩).toJson := by
  intro m j
  have hturned : ∀ {a b c d : String × Json}, [a, b, c, d].Perm [d, c, b, a] := by
    intro a b c d
    exact (List.reverse_perm [a, b, c, d]).symm
  have hreal : ∀ x : Binary64, x.isFinite = true → Rearranged (real.write x) (.real x) := by
    intro x hx
    rw [write_real hx]
    exact .refl _
  have hlongitude : (-1 : Binary64).isFinite = true := by decide +kernel
  have hlatitude : (51 : Binary64).isFinite = true := by decide +kernel
  have hheader : Rearranged (Schema.header.write ⟨1, 2320001⟩)
      (.object [("mmsi", .integer 2320001), ("repeat_indicator", .integer 1)]) :=
    .object (.cons (.refl _) (.cons (.refl _) .nil)) (.swap _ _ _)
  have hbits : Rearranged (bits.write (.ofList [true, false, true]))
      (.object [("data", .string "oA=="), ("bits", .integer 3)]) :=
    .object (.cons (.refl _) (.cons (.refl _) .nil)) (.swap _ _ _)
  have hrecord : Rearranged m.content.2 (.object [
      ("data", .object [("data", .string "oA=="), ("bits", .integer 3)]),
      ("latitude", .real 51), ("longitude", .real (-1)),
      ("header", .object [("mmsi", .integer 2320001), ("repeat_indicator", .integer 1)])]) :=
    .object (.cons hheader (.cons (hreal _ hlongitude) (.cons (hreal _ hlatitude)
      (.cons hbits .nil)))) hturned
  have hj : Rearranged m.toJson j :=
    .object (.cons (.refl _) (.cons hrecord .nil)) (.swap _ _ _)
  have hreals : ∀ data, AreFinite (dgnssBroadcast ⟨⟨1, 2320001⟩, -1, 51, data⟩).reals := fun data =>
    areFinite_cons.mpr ⟨hlongitude, areFinite_cons.mpr ⟨hlatitude, fun _ h => nomatch h⟩⟩
  have hdata : ∀ data, data.length < UInt64.size →
      ∀ b ∈ (dgnssBroadcast ⟨⟨1, 2320001⟩, -1, 51, data⟩).payloads, b.length < UInt64.size :=
    fun data h => List.forall_mem_singleton.mpr h
  obtain ⟨hsame, hread, hapart⟩ := interchange_lossless m (hreals _) (hdata _ (by decide))
  exact ⟨hsame, hread j hj, hapart _ (hreals _) (hdata _ (by decide)) (by decide +kernel)⟩

end Transponder.Message

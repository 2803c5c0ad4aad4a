import Transponder.Proofs.Layout.Writes
import Transponder.Proofs.Message.Decoding

/-!
# The texts of a message

Names, callsigns, destinations and free texts come from six-bit fields, so in a message that was
decoded they hold no other characters than such fields can (`texts_of_decode`).
-/

namespace Transponder

/-- Texts that fields can hold as they are. -/
def Text.AreFieldTexts (texts : List String) : Prop :=
  ∀ s ∈ texts, ∃ count, IsFieldText count s

/-- The texts in a part of type 24. -/
def StaticDataPart.texts : StaticDataPart → List String
  | a vesselName => [vesselName]
  | b equipment => [equipment.vendorId, equipment.callsign]

namespace Message

open Text

/-- The texts in a message. -/
def texts : Message → List String
  | staticVoyageData m => [m.callsign, m.vesselName, m.destination]
  | addressedSafety m => [m.text]
  | safetyBroadcast m => [m.text]
  | extendedClassBReport m => [m.vesselName]
  | aidToNavigationReport m => [m.name, m.nameExtension]
  | staticDataReport m => m.part.texts
  | _ => []

variable {b : Bits} {offset width : Nat}

theorem areFieldTexts_nil : AreFieldTexts [] :=
  fun _ hs => absurd hs List.not_mem_nil

theorem areFieldTexts_cons {s : String} {texts : List String}
    (h : b.textAt offset width = .ok s) (htexts : AreFieldTexts texts) :
    AreFieldTexts (s :: texts) :=
  List.forall_mem_cons.mpr ⟨⟨_, Bits.isFieldText_of_textAt_width h⟩, htexts⟩

theorem destination_texts :
    Gives (Offsets.destination b) fun found => AreFieldTexts [found.1] :=
  .bind fun _ htext => .bind fun _ _ => .pure (areFieldTexts_cons htext areFieldTexts_nil)

theorem staticVoyageData_texts :
    Gives (Offsets.staticVoyageData b) fun m => AreFieldTexts (staticVoyageData m).texts :=
  .bind fun _ _ => .bind fun _ _ => .bind fun _ _ => .bind fun _ hcallsign =>
  .bind fun _ hname => .bind fun _ _ => .bind fun _ _ => .bind fun _ _ => .bind fun _ _ =>
  .bind fun _ _ => .bind fun found hfound =>
  .pure (areFieldTexts_cons hcallsign (areFieldTexts_cons hname (destination_texts found hfound)))

theorem extendedClassBReport_texts : Gives (Offsets.extendedClassBReport b) fun m =>
    AreFieldTexts (extendedClassBReport m).texts :=
  .bind fun _ _ => .bind fun _ _ => .bind fun _ _ => .bind fun _ _ => .bind fun _ _ =>
  .bind fun _ _ => .bind fun _ _ => .bind fun _ _ => .bind fun _ _ => .bind fun _ _ =>
  .bind fun _ hname => .bind fun _ _ => .bind fun _ _ => .bind fun _ _ => .bind fun _ _ =>
  .bind fun _ _ => .bind fun _ _ => .pure (areFieldTexts_cons hname areFieldTexts_nil)

theorem aidToNavigationReport_texts : Gives (Offsets.aidToNavigationReport b) fun m =>
    AreFieldTexts (aidToNavigationReport m).texts :=
  .bind fun _ _ => .bind fun _ _ => .bind fun _ hname => .bind fun _ _ => .bind fun _ _ =>
  .bind fun _ _ => .bind fun _ _ => .bind fun _ _ => .bind fun _ _ => .bind fun _ _ =>
  .bind fun _ _ => .bind fun _ _ => .bind fun _ _ => .bind fun _ _ => .bind fun _ hextension =>
  .pure (areFieldTexts_cons hname (areFieldTexts_cons hextension areFieldTexts_nil))

theorem equipment_texts {sender : Mmsi} : Gives (Offsets.equipment b sender) fun e =>
    AreFieldTexts [e.vendorId, e.callsign] :=
  .bind fun _ _ => .bind fun _ hvendor => .bind fun _ _ => .bind fun _ _ =>
  .bind fun _ hcallsign => .bind fun _ _ =>
  .pure (areFieldTexts_cons hvendor (areFieldTexts_cons hcallsign areFieldTexts_nil))

theorem staticDataPart_texts {sender : Mmsi} : Gives (Offsets.staticDataPart b sender) fun part =>
    AreFieldTexts part.texts := by
  refine .bind fun number _ => ?_
  split
  · exact .bind fun _ hname => .pure (areFieldTexts_cons hname areFieldTexts_nil)
  · exact .bind fun e he => .pure (equipment_texts e he)
  · intro part h
    cases h

theorem staticDataReport_texts :
    Gives (Offsets.staticDataReport b) fun m => AreFieldTexts (staticDataReport m).texts :=
  .bind fun _ _ => .bind fun part hpart => .pure (staticDataPart_texts part hpart)

theorem addressedSafety_texts :
    Gives (Offsets.addressedSafety b) fun m => AreFieldTexts (addressedSafety m).texts :=
  .bind fun _ _ => .bind fun _ _ => .bind fun _ _ => .bind fun _ _ => .bind fun _ htext =>
  .pure (areFieldTexts_cons htext areFieldTexts_nil)

theorem safetyBroadcast_texts :
    Gives (Offsets.safetyBroadcast b) fun m => AreFieldTexts (safetyBroadcast m).texts :=
  .bind fun _ _ => .bind fun _ htext => .pure (areFieldTexts_cons htext areFieldTexts_nil)

/-- Where the table of offsets finds texts, it finds texts of fields. -/
theorem body_gives_texts (messageType : Nat) :
    Gives (Offsets.body b messageType) fun m => AreFieldTexts m.texts := by
  unfold Offsets.body
  split
  case h_5 => exact .bind fun m hm => .pure (staticVoyageData_texts m hm)
  case h_12 => exact .bind fun m hm => .pure (addressedSafety_texts m hm)
  case h_14 => exact .bind fun m hm => .pure (safetyBroadcast_texts m hm)
  case h_19 => exact .bind fun m hm => .pure (extendedClassBReport_texts m hm)
  case h_21 => exact .bind fun m hm => .pure (aidToNavigationReport_texts m hm)
  case h_24 => exact .bind fun m hm => .pure (staticDataReport_texts m hm)
  -- All other types are without texts.
  all_goals exact .bind fun _ _ => .pure areFieldTexts_nil

/-- The texts of a message that was decoded are texts of fields. -/
theorem texts_of_decode {m : Message} (h : decode b = .ok m) : AreFieldTexts m.texts :=
  body_gives_texts _ m (body_of_decode h).1

end Message

end Transponder

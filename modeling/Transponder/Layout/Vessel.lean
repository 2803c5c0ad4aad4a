import Transponder.Layout.Part

/-!
# Layouts of static data
-/

namespace Transponder.Layout

def arrival : Layout Arrival Arrival := do
  let month ← (word8 "eta_month" 4).on (·.month)
  let day ← (word8 "eta_day" 5).on (·.day)
  let hour ← (word8 "eta_hour" 5).on (·.hour)
  let minute ← (word8 "eta_minute" 6).on (·.minute)
  return { month, day, hour, minute }

/-- The characters of a destination. -/
def destinationLength : Nat :=
  20

/-- The bits of a destination in a message that ends two bits early. -/
def shortDestinationWidth : Nat :=
  118

/-- The destination and the flag behind it. Some ships leave the last bits out: the destination then
lacks its last character and the flag is not set. -/
def destination : Layout (String × Bool) (String × Bool) where
  read r :=
    if r.remaining < shortDestinationWidth then
      .error (.truncated r.position (6 * destinationLength) r.bits.length)
    else do
      let count := min (r.remaining / 6) destinationLength
      let (destination, r) ← answered (r.text (6 * count))
      if count = destinationLength ∧ 0 < r.remaining then
        let (dte, r) ← answered r.flag
        return ((destination, dte), r)
      else return ((destination, false), r)
  write
    | (destination, dte), w =>
      .ok ((Text.fieldText destinationLength destination, dte),
        (w.text destination (6 * destinationLength)).flag dte)

/-- Type 5. -/
def staticVoyageData : Layout StaticVoyageData StaticVoyageData := do
  let header ← header.on (·.header)
  let aisVersion ← (word8 "ais_version" 2).on (·.aisVersion)
  let imo ← (word32 "imo" 30).on (·.imo)
  let callsign ← (text 7).on (·.callsign)
  let vesselName ← (text 20).on (·.vesselName)
  let shipType ← (word8 "ship_type" 8).on (·.shipType)
  let dimensions ← dimensions.on (·.dimensions)
  let device ← (coded "epfd" 4).on (·.device)
  let eta ← arrival.on (·.eta)
  let draught ← draught.on (·.draught)
  let (destination, dte) ← destination.on fun m => (m.destination, m.dte)
  filling fun _ _ => 1
  return {
    header, aisVersion, imo, callsign, vesselName, shipType, dimensions, device, eta, draught,
    destination, dte }

/-- The characters of the extension of a name. -/
def nameExtensionLength : Nat :=
  14

/-- Type 21. -/
def aidToNavigationReport : Layout AidToNavigationReport AidToNavigationReport := do
  let header ← header.on (·.header)
  let aidType ← (word8 "aid_type" 5).on (·.aidType)
  let name ← (text 20).on (·.name)
  let positionAccuracy ← flag.on (·.positionAccuracy)
  let longitude ← (longitude 28).on (·.longitude)
  let latitude ← (latitude 27).on (·.latitude)
  let dimensions ← dimensions.on (·.dimensions)
  let device ← (coded "epfd" 4).on (·.device)
  let second ← (word8 "second" 6).on (·.second)
  let offPosition ← flag.on (·.offPosition)
  let regional ← (word8 "regional" 8).on (·.regional)
  let raim ← flag.on (·.raim)
  let virtualAid ← flag.on (·.virtualAid)
  let assigned ← flag.on (·.assigned)
  spare 1
  let nameExtension ← (textRun nameExtensionLength).on (·.nameExtension)
  return {
    header, aidType, name, positionAccuracy, longitude, latitude, dimensions, device, second,
    offPosition, regional, raim, virtualAid, assigned, nameExtension }

/-- The reference of an auxiliary craft, which is to its mother ship. -/
def mothership (sender : Mmsi) : Layout ShipReference ShipReference where
  read := ((word32 "mothership_mmsi" 30).mapped ShipReference.mothership).read
  write
    | .mothership mmsi => ((word32 "mothership_mmsi" 30).mapped ShipReference.mothership).write mmsi
    | .dimensions _ =>
      fun _ => .error (.unencodable "reference" (.auxiliaryWithoutMothership sender.toNat))

/-- The reference of any other ship, which is its size. -/
def ownSize (sender : Mmsi) : Layout ShipReference ShipReference where
  read := (dimensions.mapped ShipReference.dimensions).read
  write
    | .dimensions size => (dimensions.mapped ShipReference.dimensions).write size
    | .mothership _ => fun _ => .error (.unencodable "reference" (.notAuxiliary sender.toNat))

def reference (sender : Mmsi) : Layout ShipReference ShipReference :=
  if isAuxiliaryCraft sender then mothership sender else ownSize sender

def equipment (sender : Mmsi) : Layout Equipment Equipment := do
  let shipType ← (word8 "ship_type" 8).on (·.shipType)
  let vendorId ← (text 3).on (·.vendorId)
  let model ← (word8 "model" 4).on (·.model)
  let serial ← (word32 "serial" 20).on (·.serial)
  let callsign ← (text 7).on (·.callsign)
  let reference ← (reference sender).on (·.reference)
  filling fun _ _ => 6
  return { shipType, vendorId, model, serial, callsign, reference }

/-- One of the two parts, after its number. -/
def staticDataPart (sender : Mmsi) : Layout StaticDataPart StaticDataPart where
  read r := do
    let (number, r) ← (uint "part_number" 2).read r
    match number with
    | 0 => ((text 20).mapped StaticDataPart.a).read r
    | 1 => ((equipment sender).mapped StaticDataPart.b).read r
    | _ => .error (.unsupportedLayout 24 (.partNumber number))
  write part w := do
    let (_, w) ← (uint "part_number" 2).write part.number w
    match part with
    | .a vesselName => ((text 20).mapped StaticDataPart.a).write vesselName w
    | .b equip => ((equipment sender).mapped StaticDataPart.b).write equip w

/-- Type 24. -/
def staticDataReport : Layout StaticDataReport StaticDataReport := do
  let header ← header.on (·.header)
  let part ← (staticDataPart header.mmsi).on (·.part)
  return { header, part }

end Transponder.Layout

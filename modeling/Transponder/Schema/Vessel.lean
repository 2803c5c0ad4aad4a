import Transponder.Schema.Part

/-!
# Static data as JSON
-/

namespace Transponder.Schema

def arrival : Schema Arrival :=
  record (Arrival.mk
    <$> field "month" word8 (·.month)
    <*> field "day" word8 (·.day)
    <*> field "hour" word8 (·.hour)
    <*> field "minute" word8 (·.minute))

def staticVoyageData : Schema StaticVoyageData :=
  record (StaticVoyageData.mk
    <$> field "header" header (·.header)
    <*> field "ais_version" word8 (·.aisVersion)
    <*> field "imo" word32 (·.imo)
    <*> field "callsign" string (·.callsign)
    <*> field "vessel_name" string (·.vesselName)
    <*> field "ship_type" word8 (·.shipType)
    <*> field "dimensions" dimensions (·.dimensions)
    <*> field "epfd" coded (·.device)
    <*> field "eta" arrival (·.eta)
    <*> field "draught" real (·.draught)
    <*> field "destination" string (·.destination)
    <*> field "dte" bool (·.dte))

def shipReference : Schema ShipReference where
  readAs r j := do
    let (kind, r, content) ← j.labelled? "kind" "value" ["dimensions", "mothership"] r
    match kind with
    | "dimensions" => (dimensions.readAs r content).map .dimensions
    | "mothership" => (word32.readAs r content).map .mothership
    | _ => none
  write
    | .dimensions size => .object [("kind", .string "dimensions"), ("value", dimensions.write size)]
    | .mothership mmsi => .object [("kind", .string "mothership"), ("value", word32.write mmsi)]

/-- The fields of the first part. -/
def vesselNamePart : Fields String String :=
  field "vessel_name" string id

/-- The fields of the second part. -/
def equipment : Fields Equipment Equipment :=
  Equipment.mk
    <$> field "ship_type" word8 (·.shipType)
    <*> field "vendor_id" string (·.vendorId)
    <*> field "model" word8 (·.model)
    <*> field "serial" word32 (·.serial)
    <*> field "callsign" string (·.callsign)
    <*> field "reference" shipReference (·.reference)

def staticDataPart : Schema StaticDataPart where
  readAs r j := do
    let (part, content) ← j.tagged? "part" ["A", "B"] r
    match part with
    | "A" => ((record vesselNamePart).readAs .kept content).map .a
    | "B" => ((record equipment).readAs .kept content).map .b
    | _ => none
  write
    | .a vesselName => .object (("part", .string "A") :: vesselNamePart.entries vesselName)
    | .b equip => .object (("part", .string "B") :: equipment.entries equip)

def staticDataReport : Schema StaticDataReport :=
  record (StaticDataReport.mk
    <$> field "header" header (·.header)
    <*> field "part" staticDataPart (·.part))

def aidToNavigationReport : Schema AidToNavigationReport :=
  record (AidToNavigationReport.mk
    <$> field "header" header (·.header)
    <*> field "aid_type" word8 (·.aidType)
    <*> field "name" string (·.name)
    <*> field "position_accuracy" bool (·.positionAccuracy)
    <*> field "longitude" real (·.longitude)
    <*> field "latitude" real (·.latitude)
    <*> field "dimensions" dimensions (·.dimensions)
    <*> field "epfd" coded (·.device)
    <*> field "second" word8 (·.second)
    <*> field "off_position" bool (·.offPosition)
    <*> field "regional" word8 (·.regional)
    <*> field "raim" bool (·.raim)
    <*> field "virtual_aid" bool (·.virtualAid)
    <*> field "assigned" bool (·.assigned)
    <*> field "name_extension" string (·.nameExtension))

end Transponder.Schema

import Transponder.Record.Link
import Transponder.Schema.Part

/-!
# Link management as JSON
-/

namespace Transponder.Schema

def utcInquiry : Schema UtcInquiry :=
  record (UtcInquiry.mk
    <$> field "header" header (·.header)
    <*> field "dest_mmsi" word32 (·.destination))

def slotRequest : Schema SlotRequest :=
  record (SlotRequest.mk
    <$> field "message_type" word8 (·.messageType)
    <*> field "slot_offset" word16 (·.slotOffset))

def secondInterrogation : Schema SecondInterrogation :=
  record (SecondInterrogation.mk
    <$> field "mmsi" word32 (·.mmsi)
    <*> field "request" slotRequest (·.request))

def interrogation : Schema Interrogation :=
  record (Interrogation.mk
    <$> field "header" header (·.header)
    <*> field "mmsi" word32 (·.mmsi)
    <*> field "first_request_1" slotRequest (·.firstRequest)
    <*> field "first_request_2" (optional slotRequest) (·.secondRequest)
    <*> field "second" (optional secondInterrogation) (·.second))

def slotAssignment : Schema SlotAssignment :=
  record (SlotAssignment.mk
    <$> field "mmsi" word32 (·.mmsi)
    <*> field "offset" word16 (·.offset)
    <*> field "increment" word16 (·.increment))

def assignmentModeCommand : Schema AssignmentModeCommand :=
  record (AssignmentModeCommand.mk
    <$> field "header" header (·.header)
    <*> field "assignments" (list slotAssignment) (·.assignments))

def slotReservation : Schema SlotReservation :=
  record (SlotReservation.mk
    <$> field "offset" word16 (·.offset)
    <*> field "number" word8 (·.number)
    <*> field "timeout" word8 (·.timeout)
    <*> field "increment" word16 (·.increment))

def dataLinkManagement : Schema DataLinkManagement :=
  record (DataLinkManagement.mk
    <$> field "header" header (·.header)
    <*> field "reservations" (list slotReservation) (·.reservations))

/-- The corners of a region, wherever a `σ` keeps it. -/
def region {σ : Type} (get : σ → Region) : Fields σ Region :=
  Region.mk
    <$> field "ne_longitude" real (fun s => (get s).neLongitude)
    <*> field "ne_latitude" real (fun s => (get s).neLatitude)
    <*> field "sw_longitude" real (fun s => (get s).swLongitude)
    <*> field "sw_latitude" real (fun s => (get s).swLatitude)

/-- The two stations of an addressed command. -/
def addressees : Fields (Mmsi × Mmsi) (Mmsi × Mmsi) :=
  Prod.mk <$> field "dest_mmsi_1" word32 (·.1) <*> field "dest_mmsi_2" word32 (·.2)

def channelArea : Schema ChannelArea where
  readAs r j := do
    let (kind, content) ← j.tagged? "kind" ["addressed", "region"] r
    match kind with
    | "addressed" => ((record addressees).readAs .kept content).map fun (a, b) => .addressed a b
    | "region" => ((record (region id)).readAs .kept content).map .region
    | _ => none
  write
    | .addressed a b => .object (("kind", .string "addressed") :: addressees.entries (a, b))
    | .region corners => .object (("kind", .string "region") :: (region id).entries corners)

def channelManagement : Schema ChannelManagement :=
  record (ChannelManagement.mk
    <$> field "header" header (·.header)
    <*> field "channel_a" word16 (·.channelA)
    <*> field "channel_b" word16 (·.channelB)
    <*> field "txrx_mode" word8 (·.txrxMode)
    <*> field "low_power" bool (·.lowPower)
    <*> field "area" channelArea (·.area)
    <*> field "band_a" bool (·.bandA)
    <*> field "band_b" bool (·.bandB)
    <*> field "zone_size" word8 (·.zoneSize))

def groupAssignmentCommand : Schema GroupAssignmentCommand :=
  record (GroupAssignmentCommand.mk
    <$> field "header" header (·.header)
    <*> region (·.region)
    <*> field "station_type" word8 (·.stationType)
    <*> field "ship_type" word8 (·.shipType)
    <*> field "txrx_mode" word8 (·.txrxMode)
    <*> field "report_interval" word8 (·.reportInterval)
    <*> field "quiet_time" word8 (·.quietTime))

end Transponder.Schema

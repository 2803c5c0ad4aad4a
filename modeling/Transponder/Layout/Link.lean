import Transponder.Layout.Part
import Transponder.Record.Link

/-!
# Layouts of link management
-/

namespace Transponder.Layout

/-- Type 10. -/
def utcInquiry : Layout UtcInquiry UtcInquiry := do
  let header ← header.on (·.header)
  spare 2
  let destination ← (word32 "dest_mmsi" 30).on (·.destination)
  filling fun _ _ => 2
  return { header, destination }

def slotRequest : Layout SlotRequest SlotRequest := do
  let messageType ← (word8 "message_type" 6).on (·.messageType)
  let slotOffset ← (word16 "slot_offset" 12).on (·.slotOffset)
  return { messageType, slotOffset }

/-- The second request to the first station. -/
def secondRequest : Layout SlotRequest SlotRequest := do
  spare 2
  let request ← slotRequest
  spare 2
  return request

def secondInterrogation : Layout SecondInterrogation SecondInterrogation := do
  let mmsi ← (word32 "second_mmsi" 30).on (·.mmsi)
  let request ← slotRequest.on (·.request)
  spare 2
  return { mmsi, request }

/-- The second request as it is written: one full of zeros if only a second station follows. -/
def writtenSecondRequest (m : Interrogation) : Option SlotRequest :=
  m.secondRequest.or (m.second.map fun _ => {})

/-- Type 15. -/
def interrogation : Layout Interrogation Interrogation := do
  let header ← header.on (·.header)
  spare 2
  let mmsi ← (word32 "mmsi" 30).on (·.mmsi)
  let firstRequest ← slotRequest.on (·.firstRequest)
  let secondRequest ← (whenLength 110 secondRequest).on writtenSecondRequest
  let second ← (whenLength 160 secondInterrogation).on (·.second)
  return { header, mmsi, firstRequest, secondRequest, second }

def slotAssignment : Layout SlotAssignment SlotAssignment := do
  let mmsi ← (word32 "mmsi" 30).on (·.mmsi)
  let offset ← (word16 "offset" 12).on (·.offset)
  let increment ← (word16 "increment" 10).on (·.increment)
  return { mmsi, offset, increment }

/-- Type 16. -/
def assignmentModeCommand : Layout AssignmentModeCommand AssignmentModeCommand := do
  let header ← header.on (·.header)
  spare 2
  let assignments ← (entries "assignments" "1 or 2" 52 2 slotAssignment).on (·.assignments)
  filling fun m _ => if m.assignments.length = 1 then 4 else 0
  return { header, assignments }

def slotReservation : Layout SlotReservation SlotReservation := do
  let offset ← (word16 "offset" 12).on (·.offset)
  let number ← (word8 "number" 4).on (·.number)
  let timeout ← (word8 "timeout" 3).on (·.timeout)
  let increment ← (word16 "increment" 11).on (·.increment)
  return { offset, number, timeout, increment }

/-- Type 20. -/
def dataLinkManagement : Layout DataLinkManagement DataLinkManagement := do
  let header ← header.on (·.header)
  spare 2
  let reservations ← (entries "reservations" "1 to 4" 30 4 slotReservation).on (·.reservations)
  filling fun _ w => w.bitsToByte
  return { header, reservations }

def region : Layout Region Region := do
  let neLongitude ← (coordinate .longitude "ne_longitude" 18).on (·.neLongitude)
  let neLatitude ← (coordinate .latitude "ne_latitude" 17).on (·.neLatitude)
  let swLongitude ← (coordinate .longitude "sw_longitude" 18).on (·.swLongitude)
  let swLatitude ← (coordinate .latitude "sw_latitude" 17).on (·.swLatitude)
  return { neLongitude, neLatitude, swLongitude, swLatitude }

/-- Two stations and the flag that says so. -/
def addressedArea : Layout (Mmsi × Mmsi) ChannelArea := do
  let first ← (word32 "dest_mmsi_1" 30).on (·.1)
  spare 5
  let second ← (word32 "dest_mmsi_2" 30).on (·.2)
  spare 5
  fixedFlag true
  return .addressed first second

/-- A region and the flag that says so. -/
def regionArea : Layout Region ChannelArea := do
  let region ← region
  fixedFlag false
  return .region region

/-- The position of the flag that follows the area and says of which kind it is. -/
def addressedFlagAt : Nat :=
  139

def channelArea : Layout ChannelArea ChannelArea where
  read r := do
    if ← r.bits.flagAt addressedFlagAt then addressedArea.read r else regionArea.read r
  write
    | .addressed first second => addressedArea.write (first, second)
    | .region corners => regionArea.write corners

/-- Type 22. -/
def channelManagement : Layout ChannelManagement ChannelManagement := do
  let header ← header.on (·.header)
  spare 2
  let channelA ← (word16 "channel_a" 12).on (·.channelA)
  let channelB ← (word16 "channel_b" 12).on (·.channelB)
  let txrxMode ← (word8 "txrx_mode" 4).on (·.txrxMode)
  let lowPower ← flag.on (·.lowPower)
  let area ← channelArea.on (·.area)
  let bandA ← flag.on (·.bandA)
  let bandB ← flag.on (·.bandB)
  let zoneSize ← (word8 "zone_size" 3).on (·.zoneSize)
  spare 23
  return { header, channelA, channelB, txrxMode, lowPower, area, bandA, bandB, zoneSize }

/-- Type 23. -/
def groupAssignmentCommand : Layout GroupAssignmentCommand GroupAssignmentCommand := do
  let header ← header.on (·.header)
  spare 2
  let region ← region.on (·.region)
  let stationType ← (word8 "station_type" 4).on (·.stationType)
  let shipType ← (word8 "ship_type" 8).on (·.shipType)
  spare 22
  let txrxMode ← (word8 "txrx_mode" 2).on (·.txrxMode)
  let reportInterval ← (word8 "report_interval" 4).on (·.reportInterval)
  let quietTime ← (word8 "quiet_time" 4).on (·.quietTime)
  spare 6
  return { header, region, stationType, shipType, txrxMode, reportInterval, quietTime }

end Transponder.Layout

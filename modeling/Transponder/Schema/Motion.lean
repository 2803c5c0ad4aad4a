import Transponder.Record.Motion
import Transponder.Schema.Part

/-!
# Position reports as JSON
-/

namespace Transponder.Schema

def positionReport : Schema PositionReport :=
  record (PositionReport.mk
    <$> field "header" header (·.header)
    <*> field "nav_status" coded (·.status)
    <*> field "rate_of_turn" real (·.rateOfTurn)
    <*> field "speed_over_ground" real (·.speedOverGround)
    <*> field "position_accuracy" bool (·.positionAccuracy)
    <*> field "longitude" real (·.longitude)
    <*> field "latitude" real (·.latitude)
    <*> field "course_over_ground" real (·.courseOverGround)
    <*> field "true_heading" word16 (·.trueHeading)
    <*> field "second" word8 (·.second)
    <*> field "maneuver" coded (·.maneuver)
    <*> field "raim" bool (·.raim)
    <*> field "radio_status" word32 (·.radioStatus))

def baseStationReport : Schema BaseStationReport :=
  record (BaseStationReport.mk
    <$> field "header" header (·.header)
    <*> field "year" word16 (·.year)
    <*> field "month" word8 (·.month)
    <*> field "day" word8 (·.day)
    <*> field "hour" word8 (·.hour)
    <*> field "minute" word8 (·.minute)
    <*> field "second" word8 (·.second)
    <*> field "position_accuracy" bool (·.positionAccuracy)
    <*> field "longitude" real (·.longitude)
    <*> field "latitude" real (·.latitude)
    <*> field "epfd" coded (·.device)
    <*> field "raim" bool (·.raim)
    <*> field "radio_status" word32 (·.radioStatus))

def sarAircraftReport : Schema SarAircraftReport :=
  record (SarAircraftReport.mk
    <$> field "header" header (·.header)
    <*> field "altitude" word16 (·.altitude)
    <*> field "speed_over_ground" word16 (·.speedOverGround)
    <*> field "position_accuracy" bool (·.positionAccuracy)
    <*> field "longitude" real (·.longitude)
    <*> field "latitude" real (·.latitude)
    <*> field "course_over_ground" real (·.courseOverGround)
    <*> field "second" word8 (·.second)
    <*> field "regional" word8 (·.regional)
    <*> field "dte" bool (·.dte)
    <*> field "assigned" bool (·.assigned)
    <*> field "raim" bool (·.raim)
    <*> field "radio_status" word32 (·.radioStatus))

def classBPositionReport : Schema ClassBPositionReport :=
  record (ClassBPositionReport.mk
    <$> field "header" header (·.header)
    <*> field "reserved" word8 (·.reserved)
    <*> field "speed_over_ground" real (·.speedOverGround)
    <*> field "position_accuracy" bool (·.positionAccuracy)
    <*> field "longitude" real (·.longitude)
    <*> field "latitude" real (·.latitude)
    <*> field "course_over_ground" real (·.courseOverGround)
    <*> field "true_heading" word16 (·.trueHeading)
    <*> field "second" word8 (·.second)
    <*> field "regional" word8 (·.regional)
    <*> field "cs_unit" bool (·.csUnit)
    <*> field "display" bool (·.display)
    <*> field "dsc" bool (·.dsc)
    <*> field "band" bool (·.band)
    <*> field "msg22" bool (·.msg22)
    <*> field "assigned" bool (·.assigned)
    <*> field "raim" bool (·.raim)
    <*> field "radio_status" word32 (·.radioStatus))

def extendedClassBReport : Schema ExtendedClassBReport :=
  record (ExtendedClassBReport.mk
    <$> field "header" header (·.header)
    <*> field "reserved" word8 (·.reserved)
    <*> field "speed_over_ground" real (·.speedOverGround)
    <*> field "position_accuracy" bool (·.positionAccuracy)
    <*> field "longitude" real (·.longitude)
    <*> field "latitude" real (·.latitude)
    <*> field "course_over_ground" real (·.courseOverGround)
    <*> field "true_heading" word16 (·.trueHeading)
    <*> field "second" word8 (·.second)
    <*> field "regional" word8 (·.regional)
    <*> field "vessel_name" string (·.vesselName)
    <*> field "ship_type" word8 (·.shipType)
    <*> field "dimensions" dimensions (·.dimensions)
    <*> field "epfd" coded (·.device)
    <*> field "raim" bool (·.raim)
    <*> field "dte" bool (·.dte)
    <*> field "assigned" bool (·.assigned))

def longRangeReport : Schema LongRangeReport :=
  record (LongRangeReport.mk
    <$> field "header" header (·.header)
    <*> field "position_accuracy" bool (·.positionAccuracy)
    <*> field "raim" bool (·.raim)
    <*> field "nav_status" coded (·.status)
    <*> field "longitude" real (·.longitude)
    <*> field "latitude" real (·.latitude)
    <*> field "speed_over_ground" word8 (·.speedOverGround)
    <*> field "course_over_ground" word16 (·.courseOverGround)
    <*> field "position_latency" bool (·.positionLatency))

end Transponder.Schema

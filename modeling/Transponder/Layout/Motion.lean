import Transponder.Layout.Part
import Transponder.Record.Motion

/-!
# Layouts of position reports
-/

namespace Transponder.Layout

/-- Types 1, 2 and 3. -/
def positionReport : Layout PositionReport PositionReport := do
  let header ← header.on (·.header)
  let status ← (coded "nav_status" 4).on (·.status)
  let rateOfTurn ← rateOfTurn.on (·.rateOfTurn)
  let speedOverGround ← speed.on (·.speedOverGround)
  let positionAccuracy ← flag.on (·.positionAccuracy)
  let longitude ← (longitude 28).on (·.longitude)
  let latitude ← (latitude 27).on (·.latitude)
  let courseOverGround ← course.on (·.courseOverGround)
  let trueHeading ← (word16 "true_heading" 9).on (·.trueHeading)
  let second ← (word8 "second" 6).on (·.second)
  let maneuver ← (coded "maneuver" 2).on (·.maneuver)
  spare 3
  let raim ← flag.on (·.raim)
  let radioStatus ← (word32 "radio_status" 19).on (·.radioStatus)
  return {
    header, status, rateOfTurn, speedOverGround, positionAccuracy, longitude, latitude,
    courseOverGround, trueHeading, second, maneuver, raim, radioStatus }

/-- Types 4 and 11. -/
def baseStationReport : Layout BaseStationReport BaseStationReport := do
  let header ← header.on (·.header)
  let year ← (word16 "year" 14).on (·.year)
  let month ← (word8 "month" 4).on (·.month)
  let day ← (word8 "day" 5).on (·.day)
  let hour ← (word8 "hour" 5).on (·.hour)
  let minute ← (word8 "minute" 6).on (·.minute)
  let second ← (word8 "second" 6).on (·.second)
  let positionAccuracy ← flag.on (·.positionAccuracy)
  let longitude ← (longitude 28).on (·.longitude)
  let latitude ← (latitude 27).on (·.latitude)
  let device ← (coded "epfd" 4).on (·.device)
  spare 10
  let raim ← flag.on (·.raim)
  let radioStatus ← (word32 "radio_status" 19).on (·.radioStatus)
  return {
    header, year, month, day, hour, minute, second, positionAccuracy, longitude, latitude, device,
    raim, radioStatus }

/-- Type 9. -/
def sarAircraftReport : Layout SarAircraftReport SarAircraftReport := do
  let header ← header.on (·.header)
  let altitude ← (word16 "altitude" 12).on (·.altitude)
  let speedOverGround ← (word16 "speed_over_ground" 10).on (·.speedOverGround)
  let positionAccuracy ← flag.on (·.positionAccuracy)
  let longitude ← (longitude 28).on (·.longitude)
  let latitude ← (latitude 27).on (·.latitude)
  let courseOverGround ← course.on (·.courseOverGround)
  let second ← (word8 "second" 6).on (·.second)
  let regional ← (word8 "regional" 8).on (·.regional)
  let dte ← flag.on (·.dte)
  spare 3
  let assigned ← flag.on (·.assigned)
  let raim ← flag.on (·.raim)
  let radioStatus ← (word32 "radio_status" 20).on (·.radioStatus)
  return {
    header, altitude, speedOverGround, positionAccuracy, longitude, latitude, courseOverGround,
    second, regional, dte, assigned, raim, radioStatus }

/-- Type 18. -/
def classBPositionReport : Layout ClassBPositionReport ClassBPositionReport := do
  let header ← header.on (·.header)
  let reserved ← (word8 "reserved" 8).on (·.reserved)
  let speedOverGround ← speed.on (·.speedOverGround)
  let positionAccuracy ← flag.on (·.positionAccuracy)
  let longitude ← (longitude 28).on (·.longitude)
  let latitude ← (latitude 27).on (·.latitude)
  let courseOverGround ← course.on (·.courseOverGround)
  let trueHeading ← (word16 "true_heading" 9).on (·.trueHeading)
  let second ← (word8 "second" 6).on (·.second)
  let regional ← (word8 "regional" 2).on (·.regional)
  let csUnit ← flag.on (·.csUnit)
  let display ← flag.on (·.display)
  let dsc ← flag.on (·.dsc)
  let band ← flag.on (·.band)
  let msg22 ← flag.on (·.msg22)
  let assigned ← flag.on (·.assigned)
  let raim ← flag.on (·.raim)
  let radioStatus ← (word32 "radio_status" 20).on (·.radioStatus)
  return {
    header, reserved, speedOverGround, positionAccuracy, longitude, latitude, courseOverGround,
    trueHeading, second, regional, csUnit, display, dsc, band, msg22, assigned, raim, radioStatus }

/-- Type 19. -/
def extendedClassBReport : Layout ExtendedClassBReport ExtendedClassBReport := do
  let header ← header.on (·.header)
  let reserved ← (word8 "reserved" 8).on (·.reserved)
  let speedOverGround ← speed.on (·.speedOverGround)
  let positionAccuracy ← flag.on (·.positionAccuracy)
  let longitude ← (longitude 28).on (·.longitude)
  let latitude ← (latitude 27).on (·.latitude)
  let courseOverGround ← course.on (·.courseOverGround)
  let trueHeading ← (word16 "true_heading" 9).on (·.trueHeading)
  let second ← (word8 "second" 6).on (·.second)
  let regional ← (word8 "regional" 4).on (·.regional)
  let vesselName ← (text 20).on (·.vesselName)
  let shipType ← (word8 "ship_type" 8).on (·.shipType)
  let dimensions ← dimensions.on (·.dimensions)
  let device ← (coded "epfd" 4).on (·.device)
  let raim ← flag.on (·.raim)
  let dte ← flag.on (·.dte)
  let assigned ← flag.on (·.assigned)
  spare 4
  return {
    header, reserved, speedOverGround, positionAccuracy, longitude, latitude, courseOverGround,
    trueHeading, second, regional, vesselName, shipType, dimensions, device, raim, dte, assigned }

/-- Type 27. -/
def longRangeReport : Layout LongRangeReport LongRangeReport := do
  let header ← header.on (·.header)
  let positionAccuracy ← flag.on (·.positionAccuracy)
  let raim ← flag.on (·.raim)
  let status ← (coded "nav_status" 4).on (·.status)
  let longitude ← (longitude 18).on (·.longitude)
  let latitude ← (latitude 17).on (·.latitude)
  let speedOverGround ← (word8 "speed_over_ground" 6).on (·.speedOverGround)
  let courseOverGround ← (word16 "course_over_ground" 9).on (·.courseOverGround)
  let positionLatency ← flag.on (·.positionLatency)
  spare 1
  return {
    header, positionAccuracy, raim, status, longitude, latitude, speedOverGround,
    courseOverGround, positionLatency }

end Transponder.Layout

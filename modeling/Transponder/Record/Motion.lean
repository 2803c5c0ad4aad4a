import Transponder.Record.Vessel

/-!
# Where a station is

Reports of positions. Coordinates are degrees, to the north and to the east; speeds are knots and
courses degrees, except where a field holds the whole number of the wire.
-/

namespace Transponder

/-- A true heading that is not available. -/
def headingNotAvailable : Nat :=
  511

/-- The position of a class A ship; types 1, 2 and 3. -/
structure PositionReport where
  header : Header
  status : NavigationStatus
  rateOfTurn : Binary64
  speedOverGround : Binary64
  positionAccuracy : Bool
  longitude : Binary64
  latitude : Binary64
  courseOverGround : Binary64
  trueHeading : UInt16
  second : UInt8
  maneuver : Maneuver
  raim : Bool
  radioStatus : UInt32
deriving DecidableEq, Inhabited

/-- The position and the clock of a base station, or an answer about the time; types 4 and 11. -/
structure BaseStationReport where
  header : Header
  year : UInt16
  month : UInt8
  day : UInt8
  hour : UInt8
  minute : UInt8
  second : UInt8
  positionAccuracy : Bool
  longitude : Binary64
  latitude : Binary64
  device : PositionDevice
  raim : Bool
  radioStatus : UInt32
deriving DecidableEq, Inhabited

/-- The position of an aircraft in search and rescue; type 9. -/
structure SarAircraftReport where
  header : Header
  altitude : UInt16
  speedOverGround : UInt16
  positionAccuracy : Bool
  longitude : Binary64
  latitude : Binary64
  courseOverGround : Binary64
  second : UInt8
  regional : UInt8
  dte : Bool
  assigned : Bool
  raim : Bool
  radioStatus : UInt32
deriving DecidableEq, Inhabited

/-- The position of a class B ship; type 18. -/
structure ClassBPositionReport where
  header : Header
  reserved : UInt8
  speedOverGround : Binary64
  positionAccuracy : Bool
  longitude : Binary64
  latitude : Binary64
  courseOverGround : Binary64
  trueHeading : UInt16
  second : UInt8
  regional : UInt8
  csUnit : Bool
  display : Bool
  dsc : Bool
  band : Bool
  msg22 : Bool
  assigned : Bool
  raim : Bool
  radioStatus : UInt32
deriving DecidableEq, Inhabited

/-- The position and the static data of a class B ship; type 19. -/
structure ExtendedClassBReport where
  header : Header
  reserved : UInt8
  speedOverGround : Binary64
  positionAccuracy : Bool
  longitude : Binary64
  latitude : Binary64
  courseOverGround : Binary64
  trueHeading : UInt16
  second : UInt8
  regional : UInt8
  vesselName : String
  shipType : UInt8
  dimensions : Dimensions
  device : PositionDevice
  raim : Bool
  dte : Bool
  assigned : Bool
deriving DecidableEq, Inhabited

/-- A position for receivers far away; type 27. -/
structure LongRangeReport where
  header : Header
  positionAccuracy : Bool
  raim : Bool
  status : NavigationStatus
  longitude : Binary64
  latitude : Binary64
  speedOverGround : UInt8
  courseOverGround : UInt16
  positionLatency : Bool
deriving DecidableEq, Inhabited

end Transponder

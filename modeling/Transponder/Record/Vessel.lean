import Transponder.Binary64.Basic
import Transponder.Record.Coded
import Transponder.Record.Header

/-!
# What a station is

Static data: the names, kinds and sizes of ships, and of the aids to navigation beside them. Texts
are those of the wire without the filling at the end.
-/

namespace Transponder

/-- Where the position antenna is, in metres from the ends and the sides of a ship. -/
structure Dimensions where
  toBow : UInt16 := 0
  toStern : UInt16 := 0
  toPort : UInt8 := 0
  toStarboard : UInt8 := 0
deriving DecidableEq, Inhabited

def Dimensions.length (d : Dimensions) : Nat :=
  d.toBow.toNat + d.toStern.toNat

def Dimensions.beam (d : Dimensions) : Nat :=
  d.toPort.toNat + d.toStarboard.toNat

/-- An estimated time of arrival. -/
structure Arrival where
  month : UInt8
  day : UInt8
  hour : UInt8
  minute : UInt8
deriving DecidableEq, Inhabited

/-- Static data of a class A ship and of its voyage; type 5. -/
structure StaticVoyageData where
  header : Header
  aisVersion : UInt8
  imo : UInt32
  callsign : String
  vesselName : String
  shipType : UInt8
  dimensions : Dimensions
  device : PositionDevice
  eta : Arrival
  draught : Binary64
  destination : String
  dte : Bool
deriving DecidableEq, Inhabited

/-- The size of a ship, or the ship that an auxiliary craft belongs to. -/
inductive ShipReference where
  | dimensions (size : Dimensions)
  | mothership (mmsi : Mmsi)
deriving DecidableEq

/-- What the second part of a static data report tells. -/
structure Equipment where
  shipType : UInt8
  vendorId : String
  model : UInt8
  serial : UInt32
  callsign : String
  reference : ShipReference
deriving DecidableEq

/-- The two parts that static data comes in. -/
inductive StaticDataPart where
  | a (vesselName : String)
  | b (equipment : Equipment)
deriving DecidableEq

def StaticDataPart.number : StaticDataPart → Nat
  | a _ => 0
  | b _ => 1

/-- One part of the static data of a class B ship; type 24. -/
structure StaticDataReport where
  header : Header
  part : StaticDataPart
deriving DecidableEq

/-- An aid to navigation; type 21. -/
structure AidToNavigationReport where
  header : Header
  aidType : UInt8
  name : String
  positionAccuracy : Bool
  longitude : Binary64
  latitude : Binary64
  dimensions : Dimensions
  device : PositionDevice
  second : UInt8
  offPosition : Bool
  regional : UInt8
  raim : Bool
  virtualAid : Bool
  assigned : Bool
  nameExtension : String
deriving DecidableEq, Inhabited

/-- The name with its extension. -/
def AidToNavigationReport.fullName (m : AidToNavigationReport) : String :=
  m.name ++ m.nameExtension

end Transponder

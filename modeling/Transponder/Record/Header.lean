/-!
# Identities

Every message names the station it concerns by its MMSI, a number of nine digits, and says how often
it has been repeated.
-/

namespace Transponder

-- Powers are those of `Nat` and `Int` themselves.
attribute [local instance (high)] instPowNat

/-- The number of a station. -/
abbrev Mmsi :=
  UInt32

/-- The largest number that a field for stations can hold. -/
def maxMmsi : Nat :=
  2 ^ (30 : Nat) - 1

/-- Whether a number belongs to a craft that is attached to a mother ship. -/
def isAuxiliaryCraft (mmsi : Mmsi) : Bool :=
  mmsi.toNat / 10000000 == 98

/-- What every message starts with, after its type. -/
structure Header where
  repeatIndicator : UInt8 := 0
  mmsi : Mmsi := 0
deriving DecidableEq, Inhabited

end Transponder

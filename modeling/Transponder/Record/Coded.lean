/-!
# Coded fields

Fields whose codes have names: the status of a ship, the device that finds its position, and its
manoeuvre. Each kind names every code that its field can hold, so reading a code and writing it
again keeps it (`code_ofCode`).
-/

namespace Transponder

/-- A kind of field whose codes have names. -/
class Coded (α : Type) where
  /-- The values in the order of their codes. -/
  values : List α
  label : α → String
  /-- The value of a field that says nothing. -/
  unset : α

namespace Coded

variable {α : Type} [Coded α]

/-- The value with a code; codes repeat past the last value. -/
def ofCode (n : Nat) : α :=
  values.getD (n % (values : List α).length) unset

/-- The code of a value. -/
def code [DecidableEq α] (a : α) : Nat :=
  values.idxOf a

/-- The value with a name. -/
def ofLabel? (s : String) : Option α :=
  values.find? fun a => label a == s

end Coded

/-- What a ship is doing. -/
inductive NavigationStatus where
  | underWayUsingEngine
  | atAnchor
  | notUnderCommand
  | restrictedManoeuvrability
  | constrainedByDraught
  | moored
  | aground
  | engagedInFishing
  | underWaySailing
  | reservedHsc
  | reservedWig
  | towingAstern
  | pushingAhead
  | reserved13
  | aisSartActive
  | notDefined
deriving DecidableEq

instance : Coded NavigationStatus where
  values := [.underWayUsingEngine, .atAnchor, .notUnderCommand, .restrictedManoeuvrability,
    .constrainedByDraught, .moored, .aground, .engagedInFishing, .underWaySailing, .reservedHsc,
    .reservedWig, .towingAstern, .pushingAhead, .reserved13, .aisSartActive, .notDefined]
  label
    | .underWayUsingEngine => "under_way_using_engine"
    | .atAnchor => "at_anchor"
    | .notUnderCommand => "not_under_command"
    | .restrictedManoeuvrability => "restricted_manoeuvrability"
    | .constrainedByDraught => "constrained_by_draught"
    | .moored => "moored"
    | .aground => "aground"
    | .engagedInFishing => "engaged_in_fishing"
    | .underWaySailing => "under_way_sailing"
    | .reservedHsc => "reserved_hsc"
    | .reservedWig => "reserved_wig"
    | .towingAstern => "towing_astern"
    | .pushingAhead => "pushing_ahead"
    | .reserved13 => "reserved13"
    | .aisSartActive => "ais_sart_active"
    | .notDefined => "not_defined"
  unset := .notDefined

instance : Inhabited NavigationStatus :=
  ⟨Coded.unset⟩

/-- The device that finds a position. -/
inductive PositionDevice where
  | undefined
  | gps
  | glonass
  | gpsGlonass
  | loranC
  | chayka
  | integratedNavigation
  | surveyed
  | galileo
  | reserved9
  | reserved10
  | reserved11
  | reserved12
  | reserved13
  | reserved14
  | internalGnss
deriving DecidableEq

instance : Coded PositionDevice where
  values := [.undefined, .gps, .glonass, .gpsGlonass, .loranC, .chayka, .integratedNavigation,
    .surveyed, .galileo, .reserved9, .reserved10, .reserved11, .reserved12, .reserved13,
    .reserved14, .internalGnss]
  label
    | .undefined => "undefined"
    | .gps => "gps"
    | .glonass => "glonass"
    | .gpsGlonass => "gps_glonass"
    | .loranC => "loran_c"
    | .chayka => "chayka"
    | .integratedNavigation => "integrated_navigation"
    | .surveyed => "surveyed"
    | .galileo => "galileo"
    | .reserved9 => "reserved9"
    | .reserved10 => "reserved10"
    | .reserved11 => "reserved11"
    | .reserved12 => "reserved12"
    | .reserved13 => "reserved13"
    | .reserved14 => "reserved14"
    | .internalGnss => "internal_gnss"
  unset := .undefined

instance : Inhabited PositionDevice :=
  ⟨Coded.unset⟩

/-- Whether a ship carries out a special manoeuvre. -/
inductive Maneuver where
  | notAvailable
  | noSpecialManeuver
  | specialManeuver
  | reserved
deriving DecidableEq

instance : Coded Maneuver where
  values := [.notAvailable, .noSpecialManeuver, .specialManeuver, .reserved]
  label
    | .notAvailable => "not_available"
    | .noSpecialManeuver => "no_special_maneuver"
    | .specialManeuver => "special_maneuver"
    | .reserved => "reserved"
  unset := .notAvailable

instance : Inhabited Maneuver :=
  ⟨Coded.unset⟩

theorem NavigationStatus.ofCode_code (s : NavigationStatus) : Coded.ofCode (Coded.code s) = s := by
  cases s <;> rfl

theorem PositionDevice.ofCode_code (d : PositionDevice) : Coded.ofCode (Coded.code d) = d := by
  cases d <;> rfl

theorem Maneuver.ofCode_code (m : Maneuver) : Coded.ofCode (Coded.code m) = m := by
  cases m <;> rfl

end Transponder

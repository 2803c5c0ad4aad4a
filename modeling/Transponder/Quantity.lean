import Transponder.Binary64.Arithmetic
import Transponder.Error

/-!
# Physical quantities and their codes

Positions, speeds, courses, rates of turn and draughts are whole numbers on the wire. For each kind
there is the number that a code stands for, and the code that a number is sent as, or the reason why
it has none. Some codes are reserved for a quantity that is not available.
-/

namespace Transponder.Quantity

/-- The two coordinates of a position. -/
inductive Axis where
  | latitude
  | longitude
deriving DecidableEq

/-- The largest coordinate in degrees. -/
def Axis.limit : Axis → Nat
  | latitude => 90
  | longitude => 180

/-- The coordinate that stands for one that is not available, a degree past the largest. -/
def Axis.notAvailable (axis : Axis) : Binary64 :=
  .ofNat (axis.limit + 1)

/-- Steps per degree of the wide fields, a ten-thousandth of a minute each. -/
def fineScale : Nat :=
  600000

/-- Steps per degree of the narrow fields, a tenth of a minute each. -/
def coarseScale : Nat :=
  600

/-- Steps per degree of a field with the given width. -/
def coordinateScale (width : Nat) : Nat :=
  if 27 ≤ width then fineScale else coarseScale

/-- The degrees that the code of a coordinate stands for. -/
def coordinate (width : Nat) (code : Int) : Binary64 :=
  Binary64.ofInt code / .ofNat (coordinateScale width)

/-- The code of a coordinate in a field with the given width. -/
def coordinateCode (axis : Axis) (width : Nat) (degrees : Binary64) : Except FieldFault Int :=
  if degrees.isFinite &&
      (degrees.abs.le (.ofNat axis.limit) || degrees.same axis.notAvailable) then
    .ok (degrees * .ofNat (coordinateScale width)).roundInt
  else .error (.outsideLimit degrees axis.limit)

/-- The number of tenths that a number is nearest to, at most `limit`. -/
def tenths (limit : Nat) (x : Binary64) : Nat :=
  (x * 10).roundNat limit

/-- The number with the given count of tenths. -/
def ofTenths (n : Nat) : Binary64 :=
  Binary64.ofNat n / 10

/-- Whether a number can be a speed, a course or a draught. -/
def isAmount (x : Binary64) : Bool :=
  x.isFinite && !x.lt 0

/-- The width of a speed over ground. -/
def speedWidth : Nat :=
  10

/-- The code of a speed that is not available. -/
def speedNotAvailable : Nat :=
  1023

/-- The code of the largest speed and of every speed above it. -/
def speedMaxCode : Nat :=
  1022

/-- The speed in knots that a code stands for; zero if it is not available. -/
def speed (code : Nat) : Binary64 :=
  if code = speedNotAvailable then 0 else ofTenths code

/-- The code of a speed in knots. -/
def speedCode (knots : Binary64) : Except FieldFault Nat :=
  if isAmount knots then .ok (tenths speedMaxCode knots) else .error (.notASpeed knots)

/-- The width of a course over ground. -/
def courseWidth : Nat :=
  12

/-- The code of a course that is not available. -/
def courseNotAvailable : Nat :=
  3600

/-- The largest code that a course field holds. -/
def courseMaxCode : Nat :=
  4095

/-- The course in degrees that a code stands for; zero if it is not available. -/
def course (code : Nat) : Binary64 :=
  if code = courseNotAvailable then 0 else ofTenths code

/-- The code of a course in degrees. -/
def courseCode (degrees : Binary64) : Except FieldFault Nat :=
  if isAmount degrees then .ok (tenths courseMaxCode degrees) else .error (.notACourse degrees)

/-- The width of a rate of turn. -/
def rateOfTurnWidth : Nat :=
  8

/-- The code of a rate of turn that is not available. -/
def turnNotAvailable : Int :=
  -128

/-- The code of a turn to the right that is only known to be fast. -/
def turnSaturatedRight : Int :=
  127

/-- The code of a turn to the left that is only known to be fast. -/
def turnSaturatedLeft : Int :=
  -127

/-- The codes that stand for themselves. -/
def turnSentinels : List Int :=
  [turnNotAvailable, turnSaturatedRight, turnSaturatedLeft]

/-- The largest code of a known rate of turn. -/
def turnMaxCode : Nat :=
  126

/-- A code is this multiple of the square root of the rate of turn. -/
def turnFactor : Binary64 :=
  .ofRatio 4733 1000

/-- The rate of turn in degrees per minute that a code stands for. -/
def rateOfTurn (code : Int) : Binary64 :=
  if code ∈ turnSentinels then .ofInt code
  else
    let root := Binary64.ofInt code / turnFactor
    if code < 0 then -(root * root) else root * root

/-- The code of a rate of turn in degrees per minute. -/
def rateOfTurnCode (rate : Binary64) : Except FieldFault Int :=
  if !rate.isFinite then .error (.notARateOfTurn rate)
  else
    match turnSentinels.find? fun code => rate.same (.ofInt code) with
    | some code => .ok code
    | none =>
      let n := (turnFactor * rate.abs.sqrt).roundNat turnMaxCode
      .ok (if rate.isNegative then -(n : Int) else n)

/-- The code of a draught in metres; the field may be too narrow for it. -/
def draughtCode (metres : Binary64) : Except FieldFault Nat :=
  if isAmount metres then .ok (tenths (UInt64.size - 1) metres) else .error (.notADraught metres)

end Transponder.Quantity

import Transponder.Binary64.Arithmetic

/-!
# The binary64 number of a written decimal

A decimal is read in two steps, each of them one rounding: its significand becomes the nearest
number, and that is multiplied or divided by the number nearest to the power of ten. Powers beyond
`10 ^ 308` have no such number, so a longer division is done in steps. The result can differ in the
last place from the number nearest to the decimal; readers and writers of the interchanged records
agree on it all the same. A decimal too large for a finite number has no value.
-/

namespace Transponder.Decimal

-- Powers are those of `Nat` and `Int` themselves.
attribute [local instance (high)] instPowNat

/-- The largest power of ten among the finite numbers. -/
def maxPower : Nat :=
  308

/-- The number nearest to a power of ten. -/
def power (k : Nat) : Binary64 :=
  .ofNat (10 ^ k)

/-- Divides by `10 ^ k`, at most `10 ^ 308` at a time. -/
def scaleDown (x : Binary64) (k : Nat) : Binary64 :=
  if k ≤ maxPower then x / power k
  else if x.same 0 then x
  else scaleDown (x / power maxPower) (k - maxPower)
termination_by k
decreasing_by
  unfold maxPower at *
  omega

/-- Multiplies by `10 ^ k`; a result that is not finite is refused. -/
def scaleUp? (x : Binary64) (k : Nat) : Option Binary64 :=
  if k ≤ maxPower then
    let y := x * power k
    if y.isFinite then some y else none
  else if x.same 0 then some x
  else none

/-- The number written as `significand` and a power of ten. -/
def scaled? (negative : Bool) (significand : Nat) (exponent : Int) : Option Binary64 :=
  let x := Binary64.ofNat significand
  let magnitude := if exponent < 0 then some (scaleDown x exponent.natAbs)
    else scaleUp? x exponent.natAbs
  magnitude.map fun y => if negative then -y else y

end Transponder.Decimal

import Transponder.Binary64.Basic

/-!
# The shortest decimal of a binary64 number

`shortest tie m` is the decimal with the fewest digits that reads back as the magnitude `m`, and of
those the one nearest to it; where two are as near, `tie` says which. A decimal reads back as `m`
when it lies between the two numbers halfway to the neighbours of `m`; the ends belong to `m` when
its mantissa is even. Below a power of two the lower neighbour is only half as far away, so
distances are counted in quarters of the spacing. All comparisons are between natural numbers.
-/

namespace Transponder

-- Powers are those of `Nat` and `Int` themselves.
attribute [local instance (high)] instPowNat

/-- The decimal `significand * 10 ^ exponent`. -/
structure Decimal where
  significand : Nat
  exponent : Int
deriving DecidableEq

namespace Decimal

/-- Which one of two neighbours is taken when a magnitude lies halfway between them. -/
inductive Tie where
  | toEven
  | upward
deriving DecidableEq

/-- The ends of the interval that rounds to `m`, in quarter units. -/
def roundingInterval (m : Magnitude) : Nat × Nat :=
  let gap := 2 ^ m.exponent
  let below := if m.mantissa = 2 ^ (52 : Nat) ∧ m.exponent ≠ 0 then gap else 2 * gap
  (4 * m.units - below, 4 * m.units + 2 * gap)

/-- Whether a decimal reads back as `m`. -/
def readsBack (m : Magnitude) (x : Decimal) : Bool :=
  let (low, high) := roundingInterval m
  let value := 4 * x.significand * Magnitude.one * 10 ^ x.exponent.toNat
  let scale := 10 ^ (-x.exponent).toNat
  if m.mantissa % 2 = 0 then low * scale ≤ value && value ≤ high * scale
  else low * scale < value && value < high * scale

/-- The largest decimal with the given exponent that is not above `m`. -/
def below (m : Magnitude) (exponent : Int) : Decimal :=
  ⟨m.units * 10 ^ (-exponent).toNat / (Magnitude.one * 10 ^ exponent.toNat), exponent⟩

/-- The next decimal with the same exponent. -/
def next (x : Decimal) : Decimal :=
  ⟨x.significand + 1, x.exponent⟩

/-- Whether `m` is nearer to `x` than to `x.next`, or as near and the tie goes to `x`. -/
def isNearer (tie : Tie) (m : Magnitude) (x : Decimal) : Bool :=
  let twice := 2 * m.units * 10 ^ (-x.exponent).toNat
  let middle := (2 * x.significand + 1) * Magnitude.one * 10 ^ x.exponent.toNat
  twice < middle || (twice == middle && tie == .toEven && x.significand % 2 == 0)

/-- The exponent of the leading digit of a positive magnitude. -/
def leadingExponent (m : Magnitude) : Int :=
  (Nat.toDigits 10 (m.units * 10 ^ (340 : Nat) / Magnitude.one)).length - 341

/-- Tries the two neighbours of `m` among the decimals with each exponent in turn, from `exponent`
downwards. -/
def search (tie : Tie) (m : Magnitude) : Nat → Int → Decimal
  | 0, exponent => below m exponent
  | tries + 1, exponent =>
    let x := below m exponent
    match readsBack m x, readsBack m x.next with
    | true, true => if isNearer tie m x then x else x.next
    | true, false => x
    | false, true => x.next
    | false, false => search tie m tries (exponent - 1)

/-- The shortest decimal that reads back as `m`, and of those the nearest. Seventeen digits are
always enough. -/
def shortest (tie : Tie) (m : Magnitude) : Decimal :=
  if m.mantissa = 0 then ⟨0, 0⟩ else search tie m 17 (leadingExponent m)

end Decimal

end Transponder

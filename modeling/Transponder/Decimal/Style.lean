import Transponder.Decimal.Shortest
import Transponder.Rounding
import Transponder.Text.Ascii

/-!
# Writing binary64 numbers

A `Style` says which shortest decimal of a number is taken and how it is laid out: which exponents
are written in positional notation, and whether a whole number shows a fraction. `fixed` writes a
number with a given count of places instead, rounding its exact value and taking a half to the even
digit.
-/

namespace Transponder.Decimal

-- Powers are those of `Nat` and `Int` themselves.
attribute [local instance (high)] instPowNat

/-- A way to write numbers. -/
structure Style where
  tie : Tie
  /-- Whether a decimal whose leading digit has this exponent is written without one. -/
  isPositional : Int → Bool
  /-- What follows a whole number in positional notation. -/
  wholeSuffix : String

/-- Numbers inside sentences for people: never an exponent, and no fraction on a whole number. A tie
goes to the larger magnitude. -/
def Style.plain : Style :=
  ⟨.upward, fun _ => true, ""⟩

/-- Numbers in interchanged text: positional from `0.00001` up to sixteen digits before the point,
and `.0` on a whole number, so that it reads back as the same kind of number. A tie goes to the even
digit. -/
def Style.interchange : Style :=
  ⟨.toEven, fun e => -5 ≤ e && e ≤ 15, ".0"⟩

/-- The digits of a significand without the zeros at its end, and how many those were. -/
def digits (significand : Nat) : List Char × Nat :=
  let all := Nat.toDigits 10 significand
  let kept := Text.dropTrailing '0' all
  (kept, all.length - kept.length)

/-- The digits in positional notation; `point` of them stand before the point. -/
def positional (ds : List Char) (point : Int) (wholeSuffix : String) : String :=
  if point ≤ 0 then
    String.ofList ("0.".toList ++ List.replicate (-point).toNat '0' ++ ds)
  else if (ds.length : Int) ≤ point then
    String.ofList (ds ++ List.replicate (point.toNat - ds.length) '0') ++ wholeSuffix
  else
    String.ofList (ds.take point.toNat ++ '.' :: ds.drop point.toNat)

/-- The digits with one before the point, and the exponent with its sign. -/
def scientific (ds : List Char) (exponent : Int) : String :=
  let fraction := if ds.length ≤ 1 then [] else '.' :: ds.drop 1
  let sign := if exponent < 0 then "-" else "+"
  String.ofList (ds.take 1 ++ fraction) ++ "e" ++ sign ++ toString exponent.natAbs

/-- The text of a decimal. -/
def render (style : Style) (x : Decimal) : String :=
  match digits x.significand with
  | ([], _) => "0" ++ style.wholeSuffix
  | (ds, zeros) =>
    let point := x.exponent + zeros + ds.length
    if style.isPositional (point - 1) then positional ds point style.wholeSuffix
    else scientific ds (point - 1)

def sign (negative : Bool) : String :=
  if negative then "-" else ""

/-- A magnitude with exactly `places` digits after the point. -/
def fixedMagnitude (places : Nat) (m : Magnitude) : String :=
  let n := Rounding.halfEven (m.units * 10 ^ places) Magnitude.one
  let fraction := Nat.toDigits 10 (n % 10 ^ places)
  toString (n / 10 ^ places) ++ "." ++
    String.ofList (List.replicate (places - fraction.length) '0' ++ fraction)

end Transponder.Decimal

namespace Transponder.Binary64

/-- The text of a number in a style; the numbers that are not finite have names. -/
def render (style : Decimal.Style) : Binary64 → String
  | finite s m => Decimal.sign s ++ (Decimal.shortest style.tie m).render style
  | infinite s => Decimal.sign s ++ "inf"
  | nan => "NaN"

/-- The text of a number with `places` digits after the point. -/
def fixed (places : Nat) : Binary64 → String
  | finite s m => Decimal.sign s ++ Decimal.fixedMagnitude places m
  | infinite s => Decimal.sign s ++ "inf"
  | nan => "NaN"

end Transponder.Binary64

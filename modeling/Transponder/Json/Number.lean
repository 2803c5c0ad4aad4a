import Transponder.Decimal.Scaled
import Transponder.Json.Value
import Transponder.Text.Ascii

/-!
# JSON numbers

Reading a number. Its digits are gathered into a significand of at most 64 bits; the digits that no
longer fit are dropped and only count for the exponent. A number without fraction and exponent whose
digits all fit is an integer, except for a negative zero and for what is below the range of signed
64-bit numbers.
-/

namespace Transponder.Json

-- Powers are those of `Nat` and `Int` themselves.
attribute [local instance (high)] instPowNat

/-- The largest significand. -/
def maxSignificand : Nat :=
  UInt64.size - 1

/-- Digits gathered into a significand while they fit, and the digits left over. -/
def gather (n : Nat) : List Nat → Nat × List Nat
  | [] => (n, [])
  | d :: ds => if n * 10 + d ≤ maxSignificand then gather (n * 10 + d) ds else (n, d :: ds)

/-- The digits at the start of a text. -/
def takeDigits : List Char → List Nat × List Char
  | [] => ([], [])
  | c :: cs =>
    match Text.digitValue? 10 c with
    | some d =>
      let (ds, rest) := takeDigits cs
      (d :: ds, rest)
    | none => ([], c :: cs)

/-- The parts of a written number. -/
structure Numeral where
  negative : Bool
  whole : List Nat
  fraction : Option (List Nat)
  exponent : Option Int

/-- The whole digits of a number: no zero in front of others. -/
def wholeDigits? (cs : List Char) : Option (List Nat × List Char) :=
  match takeDigits cs with
  | ([], _) => none
  | (0 :: _ :: _, _) => none
  | (ds, rest) => some (ds, rest)

/-- The fraction of a number, if there is one. -/
def fractionDigits? : List Char → Option (Option (List Nat) × List Char)
  | '.' :: cs =>
    match takeDigits cs with
    | ([], _) => none
    | (ds, rest) => some (some ds, rest)
  | cs => some (none, cs)

/-- A sign, and whether it is a minus. -/
def takeSign : List Char → Bool × List Char
  | '-' :: cs => (true, cs)
  | '+' :: cs => (false, cs)
  | cs => (false, cs)

/-- The exponent of a number, if there is one. -/
def exponent? : List Char → Option (Option Int × List Char)
  | [] => some (none, [])
  | c :: cs =>
    if c = 'e' || c = 'E' then
      let (negative, cs) := takeSign cs
      match takeDigits cs with
      | ([], _) => none
      | (ds, rest) =>
        let n : Nat := ds.foldl (fun n d => n * 10 + d) 0
        some (some (if negative then -(n : Int) else n), rest)
    else some (none, c :: cs)

/-- The number at the start of a text. -/
def numeral? (cs : List Char) : Option (Numeral × List Char) := do
  let (negative, cs) := match cs with
    | '-' :: rest => (true, rest)
    | _ => (false, cs)
  let (whole, cs) ← wholeDigits? cs
  let (fraction, cs) ← fractionDigits? cs
  let (exponent, cs) ← exponent? cs
  return ({ negative, whole, fraction, exponent }, cs)

/-- The value of a significand with a power of ten. -/
def realValue (negative : Bool) (significand : Nat) (exponent : Int) : Json :=
  match Decimal.scaled? negative significand exponent with
  | some x => real x
  | none => unrepresentable

/-- The value of a number. -/
def Numeral.value (x : Numeral) : Json :=
  let (n, dropped) := gather 0 x.whole
  match x.fraction, x.exponent with
  | none, none =>
    if dropped ≠ [] then realValue x.negative n dropped.length
    else if !x.negative then integer n
    else if n = 0 || 2 ^ (63 : Nat) < n then realValue true n 0
    else integer (-(n : Int))
  | fraction, exponent =>
    let ds := fraction.getD []
    let (m, ignored) := gather n ds
    let places : Int := (ds.length : Int) - (ignored.length : Int)
    realValue x.negative m ((dropped.length : Int) - places + exponent.getD 0)

end Transponder.Json

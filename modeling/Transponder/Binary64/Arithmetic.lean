import Transponder.Binary64.Basic

/-!
# Arithmetic on binary64 numbers

Multiplication, division and square root are exact computations on units followed by one rounding,
so each result is the number nearest to the true one. `sqrt` finds the integer root of a number that
has more bits than a mantissa needs and marks an inexact root by one further bit, which is enough
for the rounding to see on which side of a half it lies.
-/

namespace Transponder.Binary64

-- Powers are those of `Nat` and `Int` themselves.
attribute [local instance (high)] instPowNat

/-- The product, correctly rounded. -/
def mul : Binary64 → Binary64 → Binary64
  | nan, _ => nan
  | _, nan => nan
  | infinite s, infinite t => infinite (s ^^ t)
  | infinite s, finite t m => if m.mantissa = 0 then nan else infinite (s ^^ t)
  | finite s m, infinite t => if m.mantissa = 0 then nan else infinite (s ^^ t)
  | finite s m, finite t k => ofUnits (s ^^ t) (m.units * k.units) Magnitude.one

instance : Mul Binary64 :=
  ⟨mul⟩

/-- The quotient, correctly rounded. -/
def div : Binary64 → Binary64 → Binary64
  | nan, _ => nan
  | _, nan => nan
  | infinite _, infinite _ => nan
  | infinite s, finite t _ => infinite (s ^^ t)
  | finite s _, infinite t => finite (s ^^ t) .zero
  | finite s m, finite t k =>
    if k.mantissa = 0 then
      if m.mantissa = 0 then nan else infinite (s ^^ t)
    else ofUnits (s ^^ t) (m.units * Magnitude.one) k.units

instance : Div Binary64 :=
  ⟨div⟩

/-- One step of Newton's iteration for the integer square root, as long as it goes down. -/
def rootFrom (n : Nat) (x : Nat) : Nat :=
  let y := (x + n / x) / 2
  if y < x then rootFrom n y else x
termination_by x

/-- The integer square root: the largest number whose square is at most `n`. -/
def isqrt (n : Nat) : Nat :=
  if n = 0 then 0 else rootFrom n (2 ^ (n.log2 / 2 + 1))

/-- The square root, correctly rounded. -/
def sqrt : Binary64 → Binary64
  | nan => nan
  | infinite s => if s then nan else infinite false
  | finite s m =>
    if m.mantissa = 0 then finite s m
    else if s then nan
    else
      let n := m.units * Magnitude.one
      let r := isqrt n
      ofUnits false (2 * r + if r * r = n then 0 else 1) 2

/-- The nearest whole number, a half going away from zero. -/
def round : Binary64 → Binary64
  | finite s m => ofUnits s (Rounding.halfUp m.units Magnitude.one * Magnitude.one) 1
  | x => x

/-- The nearest natural number, a half going up and anything above `limit` coming down to it; zero
for a negative number and for not-a-number. -/
def roundNat (limit : Nat) : Binary64 → Nat
  | finite s m => if s then 0 else min (Rounding.halfUp m.units Magnitude.one) limit
  | infinite s => if s then 0 else limit
  | nan => 0

/-- The nearest integer of a finite number, a half going away from zero; zero for the others. -/
def roundInt : Binary64 → Int
  | finite s m =>
    let n := Rounding.halfUp m.units Magnitude.one
    if s then -(n : Int) else n
  | _ => 0

end Transponder.Binary64

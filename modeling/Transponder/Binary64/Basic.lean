import Transponder.Rounding

/-!
# Binary64 numbers

The numbers of the IEEE 754 interchange format binary64, as exact values. A finite number is a sign
and a magnitude, and a magnitude is a whole number of units of `2 ^ -1074`, the smallest positive
number of the format. `Magnitude.round?` is the one place where a value is rounded: it takes a
quotient of natural numbers, counted in units, to the nearest magnitude, ties to even, and answers
`none` past the largest one. Every arithmetic operation is an exact computation followed by it.

There is one not-a-number, for nothing here looks at the payload of one.
-/

namespace Transponder

-- Powers are those of `Nat` and `Int` themselves.
attribute [local instance (high)] instPowNat

/-- A finite magnitude of binary64: `mantissa * 2 ^ exponent` units of `2 ^ -1074`. A mantissa below
`2 ^ 52` goes with the smallest exponent only, so each value has one representation. -/
structure Magnitude where
  mantissa : Nat
  exponent : Nat
  mantissa_lt : mantissa < 2 ^ (53 : Nat)
  exponent_le : exponent ≤ 2045
  normal : exponent = 0 ∨ 2 ^ (52 : Nat) ≤ mantissa
deriving DecidableEq

namespace Magnitude

/-- The value in units of `2 ^ -1074`. -/
def units (x : Magnitude) : Nat :=
  x.mantissa * 2 ^ x.exponent

/-- The number of units in one. -/
def one : Nat :=
  2 ^ (1074 : Nat)

def zero : Magnitude :=
  ⟨0, 0, by decide, by decide, .inl rfl⟩

instance : Inhabited Magnitude :=
  ⟨zero⟩

/-- The exponent at which the mantissa of `q` units has at most 53 bits. -/
def scale (q : Nat) : Nat :=
  q.log2 - 52

theorem div_two_pow_scale_lt (q : Nat) : q / 2 ^ scale q < 2 ^ (53 : Nat) := by
  rw [Nat.div_lt_iff_lt_mul (Nat.two_pow_pos _), ← Nat.pow_add]
  have h := @Nat.lt_log2_self q
  have : 2 ^ (q.log2 + 1) ≤ 2 ^ (53 + scale q) :=
    Nat.pow_le_pow_right (by decide) (by unfold scale; omega)
  omega

theorem le_div_two_pow_scale {q : Nat} (h : scale q ≠ 0) : 2 ^ (52 : Nat) ≤ q / 2 ^ scale q := by
  rw [Nat.le_div_iff_mul_le (Nat.two_pow_pos _), ← Nat.pow_add]
  have hq : q ≠ 0 := by
    intro hq
    subst hq
    exact h rfl
  have e : 52 + scale q = q.log2 := by
    unfold scale at h ⊢
    omega
  rw [e]
  exact Nat.log2_self_le hq

/-- The magnitude nearest to `n / d` units, a tie going to the even mantissa; `none` when that is
past the largest magnitude. -/
def round? (n d : Nat) : Option Magnitude :=
  let e := scale (n / d)
  let m := Rounding.halfEven n (d * 2 ^ e)
  if h : m < 2 ^ (53 : Nat) then
    if he : e ≤ 2045 then
      some ⟨m, e, h, he, by
        rcases Nat.eq_zero_or_pos e with h0 | h0
        · exact .inl h0
        · have h1 := Rounding.le_halfEven n (d * 2 ^ e)
          rw [← Nat.div_div_eq_div_mul] at h1
          exact .inr (Nat.le_trans (le_div_two_pow_scale (Nat.pos_iff_ne_zero.mp h0)) h1)⟩
    else none
  else
    if he : e + 1 ≤ 2045 then
      some ⟨2 ^ (52 : Nat), e + 1, by decide, he, .inr (Nat.le_refl _)⟩
    else none

end Magnitude

/-- A binary64 number. -/
inductive Binary64 where
  | finite (negative : Bool) (magnitude : Magnitude)
  | infinite (negative : Bool)
  | nan
deriving DecidableEq

namespace Binary64

instance : Inhabited Binary64 :=
  ⟨.finite false .zero⟩

/-- The number nearest to `n / d` units with the given sign, infinite past the largest one. -/
def ofUnits (negative : Bool) (n d : Nat) : Binary64 :=
  match Magnitude.round? n d with
  | some m => .finite negative m
  | none => .infinite negative

/-- The number nearest to the quotient `n / d`. -/
def ofRatio (n d : Nat) : Binary64 :=
  ofUnits false (n * Magnitude.one) d

/-- The number nearest to a natural number. -/
def ofNat (n : Nat) : Binary64 :=
  ofRatio n 1

/-- The number nearest to an integer. -/
def ofInt (i : Int) : Binary64 :=
  ofUnits (i < 0) (i.natAbs * Magnitude.one) 1

instance (n : Nat) : OfNat Binary64 n :=
  ⟨ofNat n⟩

/-- Whether the number is neither infinite nor not-a-number. -/
def isFinite : Binary64 → Bool
  | finite _ _ => true
  | _ => false

/-- The sign bit; not-a-number counts as positive. -/
def isNegative : Binary64 → Bool
  | finite s _ => s
  | infinite s => s
  | nan => false

def neg : Binary64 → Binary64
  | finite s m => finite (!s) m
  | infinite s => infinite (!s)
  | nan => nan

instance : Neg Binary64 :=
  ⟨neg⟩

def abs : Binary64 → Binary64
  | finite _ m => finite false m
  | infinite _ => infinite false
  | nan => nan

/-- The units of a finite number, with its sign; both zeros have none. -/
def signedUnits : Bool → Magnitude → Int
  | true, m => -(m.units : Int)
  | false, m => m.units

/-- The order of numbers: the two zeros are equal and not-a-number is beside every number. -/
def le : Binary64 → Binary64 → Bool
  | nan, _ => false
  | _, nan => false
  | infinite s, infinite t => s || !t
  | infinite s, finite _ _ => s
  | finite _ _, infinite t => !t
  | finite s m, finite t k => signedUnits s m ≤ signedUnits t k

/-- The strict order of numbers. -/
def lt (x y : Binary64) : Bool :=
  le x y && !le y x

/-- Equality as numbers: the two zeros are equal, not-a-number equals nothing. -/
def same (x y : Binary64) : Bool :=
  le x y && le y x

end Binary64

end Transponder

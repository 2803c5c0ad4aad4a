import Transponder.Bits.Basic
import Transponder.Quantity
import Transponder.Text.SixBit

/-!
# Reading fields

Each kind of field has an absolute read, named `…At`, which takes the offset of the field, and a read
at the position of a `Reader`. A read at the position answers what the absolute read finds there, or
why it is refused; either way there is the reader after it, which is its first component.
-/

namespace Transponder

-- Powers are those of `Nat` and `Int` themselves.
attribute [local instance (high)] instPowNat

namespace Bits

/-- Refuses a range of bits that reaches past the end. -/
def checkRange (b : Bits) (offset width : Nat) : Except Error Unit :=
  if offset + width ≤ b.length then .ok () else .error (.truncated offset width b.length)

/-- The natural number of `width` bits at `offset`, most significant bit first. -/
def uintAt (b : Bits) (offset width : Nat) : Except Error Nat := do
  b.checkRange offset width
  return value (b.window offset width)

/-- The bits of a range as a sequence of their own. -/
def slice (b : Bits) (offset width : Nat) : Except Error Bits := do
  b.checkRange offset width
  return ofList (b.window offset width)

/-- The integer that a natural number of `width` bits stands for in two's complement. -/
def signed (width n : Nat) : Int :=
  if 2 * n < 2 ^ width then n else n - 2 ^ width

/-- The integer of `width` bits at `offset` in two's complement. -/
def intAt (b : Bits) (offset width : Nat) : Except Error Int := do
  return signed width (← b.uintAt offset width)

def flagAt (b : Bits) (offset : Nat) : Except Error Bool := do
  return (← b.uintAt offset 1) == 1

/-- The six-bit text of `width` bits; bits that are too few for a character are passed over. -/
def textAt (b : Bits) (offset width : Nat) : Except Error String := do
  b.checkRange offset width
  return Text.ofFieldCodes
    ((List.range (width / 6)).map fun i => value (b.window (offset + 6 * i) 6))

/-- A latitude or a longitude in degrees. -/
def coordinateAt (b : Bits) (offset width : Nat) : Except Error Binary64 := do
  return Quantity.coordinate width (← b.intAt offset width)

/-- A speed over ground in knots. -/
def speedAt (b : Bits) (offset : Nat) : Except Error Binary64 := do
  return Quantity.speed (← b.uintAt offset Quantity.speedWidth)

/-- A course over ground in degrees. -/
def courseAt (b : Bits) (offset : Nat) : Except Error Binary64 := do
  return Quantity.course (← b.uintAt offset Quantity.courseWidth)

/-- A rate of turn in degrees per minute. -/
def rateOfTurnAt (b : Bits) (offset : Nat) : Except Error Binary64 := do
  return Quantity.rateOfTurn (← b.intAt offset Quantity.rateOfTurnWidth)

end Bits

/-- A position in a sequence of bits. -/
structure Reader where
  bits : Bits
  position : Nat

namespace Reader

/-- At the first bit. -/
def start (bits : Bits) : Reader :=
  ⟨bits, 0⟩

/-- The bits from the position on. -/
def remaining (r : Reader) : Nat :=
  r.bits.length - r.position

/-- Moves to a position, at most the end. -/
def moveTo (r : Reader) (position : Nat) : Reader × Except Error Unit :=
  if r.bits.length < position then (r, .error (.invalidPosition position r.bits.length))
  else ({ r with position }, .ok ())

/-- Moves over bits, which have to be there. -/
def skip (r : Reader) (width : Nat) : Reader × Except Error Unit :=
  match r.bits.checkRange r.position width with
  | .error e => (r, .error e)
  | .ok _ => ({ r with position := r.position + width }, .ok ())

/-- Answers what was found at the position, and moves over the `width` bits of it. -/
def advance {α : Type} (r : Reader) (width : Nat) (found : Except Error α) :
    Reader × Except Error α :=
  match found with
  | .error e => (r, .error e)
  | .ok a => ({ r with position := r.position + width }, .ok a)

def uint (r : Reader) (width : Nat) : Reader × Except Error Nat :=
  r.advance width (r.bits.uintAt r.position width)

/-- The low 8 bits of a natural number. -/
def word8 (r : Reader) (width : Nat) : Reader × Except Error UInt8 :=
  (r.uint width).map id (·.map UInt8.ofNat)

/-- The low 16 bits of a natural number. -/
def word16 (r : Reader) (width : Nat) : Reader × Except Error UInt16 :=
  (r.uint width).map id (·.map UInt16.ofNat)

/-- The low 32 bits of a natural number. -/
def word32 (r : Reader) (width : Nat) : Reader × Except Error UInt32 :=
  (r.uint width).map id (·.map UInt32.ofNat)

def int (r : Reader) (width : Nat) : Reader × Except Error Int :=
  r.advance width (r.bits.intAt r.position width)

def flag (r : Reader) : Reader × Except Error Bool :=
  r.advance 1 (r.bits.flagAt r.position)

def text (r : Reader) (width : Nat) : Reader × Except Error String :=
  r.advance width (r.bits.textAt r.position width)

def coordinate (r : Reader) (width : Nat) : Reader × Except Error Binary64 :=
  r.advance width (r.bits.coordinateAt r.position width)

def speed (r : Reader) : Reader × Except Error Binary64 :=
  r.advance Quantity.speedWidth (r.bits.speedAt r.position)

def course (r : Reader) : Reader × Except Error Binary64 :=
  r.advance Quantity.courseWidth (r.bits.courseAt r.position)

def rateOfTurn (r : Reader) : Reader × Except Error Binary64 :=
  r.advance Quantity.rateOfTurnWidth (r.bits.rateOfTurnAt r.position)

/-- The next `width` bits, uninterpreted. -/
def payload (r : Reader) (width : Nat) : Reader × Except Error Bits :=
  r.advance width (r.bits.slice r.position width)

end Reader

end Transponder

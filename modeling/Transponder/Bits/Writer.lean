import Transponder.Bits.Basic
import Transponder.Quantity
import Transponder.Text.SixBit

/-!
# Writing fields

A `Writer` holds the bits written so far. Each kind of field has one write. A write that can be
refused is told the name of the field for the error, and answers whether it was; either way there is
the writer after it, which is its first component.
-/

namespace Transponder

-- Powers are those of `Nat` and `Int` themselves.
attribute [local instance (high)] instPowNat

/-- The bits written so far. -/
structure Writer where
  bits : Bits

namespace Writer

def empty : Writer :=
  ⟨.empty⟩

/-- Refuses a field for a fault of its value. -/
def refuse {α : Type} (field : String) : Except FieldFault α → Except Error α :=
  Except.mapError (.unencodable field)

/-- A natural number in `width` bits. -/
def uint (w : Writer) (field : String) (n width : Nat) : Writer × Except Error Unit :=
  if 2 ^ width ≤ n then (w, .error (.unencodable field (.tooWide n width)))
  else (⟨w.bits.pushUint n width⟩, .ok ())

/-- An integer in two's complement in `width` bits, which are from 1 to 64. -/
def int (w : Writer) (field : String) (i : Int) (width : Nat) : Writer × Except Error Unit :=
  if width = 0 ∨ 64 < width then (w, .error (.unencodable field (.signedWidth width)))
  else if i < -2 ^ (width - 1) ∨ 2 ^ (width - 1) ≤ i then
    (w, .error (.unencodable field (.tooWideSigned i width)))
  else (⟨w.bits.pushUint (i % 2 ^ width).toNat width⟩, .ok ())

def flag (w : Writer) (x : Bool) : Writer :=
  ⟨w.bits.push x⟩

/-- A text in `width / 6` characters. -/
def text (w : Writer) (s : String) (width : Nat) : Writer :=
  ⟨(Text.fieldCodes (width / 6) s).foldl (fun b code => b.pushUint code 6) w.bits⟩

/-- A quantity that is sent as a code, which `put` writes behind what there is. -/
def coded {ι : Type} (w : Writer) (field : String) (code : Except FieldFault ι)
    (put : Writer → ι → Writer × Except Error Unit) : Writer × Except Error Unit :=
  match refuse field code with
  | .error e => (w, .error e)
  | .ok c => put w c

/-- A latitude or a longitude in degrees. -/
def coordinate (w : Writer) (axis : Quantity.Axis) (field : String) (degrees : Binary64)
    (width : Nat) : Writer × Except Error Unit :=
  w.coded field (Quantity.coordinateCode axis width degrees) (·.int field · width)

/-- A speed over ground in knots. -/
def speed (w : Writer) (field : String) (knots : Binary64) : Writer × Except Error Unit :=
  w.coded field (Quantity.speedCode knots) (·.uint field · Quantity.speedWidth)

/-- A course over ground in degrees. -/
def course (w : Writer) (field : String) (degrees : Binary64) : Writer × Except Error Unit :=
  w.coded field (Quantity.courseCode degrees) (·.uint field · Quantity.courseWidth)

/-- A rate of turn in degrees per minute. -/
def rateOfTurn (w : Writer) (field : String) (rate : Binary64) : Writer × Except Error Unit :=
  w.coded field (Quantity.rateOfTurnCode rate) (·.int field · Quantity.rateOfTurnWidth)

/-- Zero bits. -/
def padding (w : Writer) (width : Nat) : Writer :=
  ⟨w.bits.pushUint 0 width⟩

/-- The bits that the last byte has to spare. -/
def bitsToByte (w : Writer) : Nat :=
  (8 - w.bits.length % 8) % 8

/-- Zero bits up to the next byte. -/
def padToByte (w : Writer) : Writer :=
  w.padding w.bitsToByte

/-- Uninterpreted bits. -/
def payload (w : Writer) (data : Bits) : Writer :=
  ⟨w.bits.extend data⟩

end Writer

end Transponder

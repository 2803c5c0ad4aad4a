import Transponder.Bits.Basic
import Transponder.Error
import Transponder.Text.Base64

/-!
# Bits from bytes

Opaque data comes as bytes with a count of bits. There must be bytes enough for the count; the bits
past it are cut off.
-/

namespace Transponder.Bits

/-- The first `length` bits of some bytes. -/
def ofBytes (bytes : List UInt8) (length : Nat) : Except ValueError Bits :=
  if h : (length + 7) / 8 ≤ bytes.toArray.size then .ok (cut bytes.toArray length h)
  else .error (.payloadLength length bytes.length)

/-- The bit at a position before the end. -/
def get? (b : Bits) (i : Nat) : Option Bool :=
  if i < b.length then some (b.bit i) else none

/-- The packed bytes in base64. -/
def base64 (b : Bits) : String :=
  String.ofList (Base64.encode b.bytes.toList)

end Transponder.Bits

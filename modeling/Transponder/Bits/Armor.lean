import Transponder.Bits.Basic
import Transponder.Text.Ascii

/-!
# Armored payloads

A sentence carries bits as text, six to a character: the values up to 39 are the characters from
`0` to `W`, the others those from the backtick to `w`. The last group is filled up with zero bits.
In the other direction every byte of the text gives six bits, and a byte outside the two ranges
gives zeros.
-/

namespace Transponder.Bits

/-- The value of the byte of an armor character, zero for any other byte. -/
def armorValue (byte : Nat) : Nat :=
  if 48 ≤ byte ∧ byte ≤ 87 then byte - 48
  else if 96 ≤ byte ∧ byte ≤ 119 then byte - 56
  else 0

/-- The armor character of the six low bits of a value. -/
def armorChar (value : Nat) : Char :=
  let v := value % 64
  Char.ofNat (if v < 40 then v + 48 else v + 56)

/-- The bits that an armored text carries. -/
def ofArmor (text : String) : Bits :=
  (Text.utf8 text.toList).foldl (fun b byte => b.pushUint (armorValue byte.toNat) 6) empty

/-- The bits needed to fill up the last character. -/
def fillBits (length : Nat) : Nat :=
  (6 - length % 6) % 6

/-- The armored text of a sequence. -/
def armored (b : Bits) : String :=
  String.ofList ((List.range ((b.length + 5) / 6)).map fun i => armorChar (value (b.window (6 * i) 6)))

theorem armorValue_armorChar (v : Nat) : armorValue (armorChar v).toNat = v % 64 := by
  have h : v % 64 < 64 := Nat.mod_lt _ (by decide)
  unfold armorChar
  generalize v % 64 = u at h ⊢
  revert u
  decide

theorem fillBits_le (length : Nat) : fillBits length ≤ 5 := by
  unfold fillBits
  omega

theorem length_add_fillBits (length : Nat) :
    length + fillBits length = 6 * ((length + 5) / 6) := by
  unfold fillBits
  omega

end Transponder.Bits

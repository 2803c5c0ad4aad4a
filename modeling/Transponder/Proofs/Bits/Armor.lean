import Transponder.Bits.Armor
import Transponder.Proofs.Bits.Windows
import Transponder.Proofs.Text.Fields

/-!
# Armor is taken off again

The text that carries a sequence of bits gives them back, followed by the zeros that fill up its
last character (`toList_ofArmor_armored`); without as many bits as were filled up, it is the
sequence itself (`truncate_ofArmor_armored`). Its characters are those of the two armor ranges, so
they are ASCII, and a sentence can carry them. In the other direction the bits of a text are armored
to the text itself, but for the bytes that are no armor: each of these becomes a `0`
(`utf8_armored_ofArmor`).
-/

namespace Transponder.Bits

variable {b : Bits}

theorem armorChar_range (v : Nat) :
    (48 ≤ (armorChar v).toNat ∧ (armorChar v).toNat ≤ 87) ∨
      (96 ≤ (armorChar v).toNat ∧ (armorChar v).toNat ≤ 119) := by
  have h : v % 64 < 64 := Nat.mod_lt _ (by decide)
  unfold armorChar
  generalize v % 64 = u at h ⊢
  revert u
  decide

theorem isAscii_armorChar (v : Nat) : Text.isAscii (armorChar v) = true := by
  have h := armorChar_range v
  rw [Text.isAscii, decide_eq_true_iff]
  omega

/-- The values of the characters of an armored text. -/
def armorValues (b : Bits) : List Nat :=
  (List.range ((b.length + 5) / 6)).map fun i => value (b.window (6 * i) 6)

theorem toList_armored : b.armored.toList = b.armorValues.map armorChar := by
  rw [armored, String.toList_ofList, armorValues, List.map_map]
  rfl

theorem length_armored : b.armored.length = (b.length + 5) / 6 := by
  rw [← String.length_toList, toList_armored, List.length_map, armorValues, List.length_map,
    List.length_range]

theorem armored_range {c : Char} (h : c ∈ b.armored.toList) :
    (48 ≤ c.toNat ∧ c.toNat ≤ 87) ∨ (96 ≤ c.toNat ∧ c.toNat ≤ 119) := by
  rw [toList_armored] at h
  obtain ⟨v, -, rfl⟩ := List.mem_map.mp h
  exact armorChar_range v

/-- No armored text has a character that takes more than one byte. -/
theorem isAscii_of_mem_armored {c : Char} (h : c ∈ b.armored.toList) : Text.isAscii c = true := by
  rw [toList_armored] at h
  obtain ⟨v, -, rfl⟩ := List.mem_map.mp h
  exact isAscii_armorChar v

theorem armorValues_lt : ∀ v ∈ b.armorValues, v < 64 := by
  intro v hv
  obtain ⟨i, -, rfl⟩ := List.mem_map.mp hv
  exact value_lt (b.window (6 * i) 6)

/-- The bits of a text are those of the values of its bytes. -/
theorem toList_ofArmor (text : String) : (ofArmor text).toList =
    codeBits ((Text.utf8 text.toList).map fun byte => armorValue byte.toNat) := by
  have h := toList_foldl_pushUint (b := empty)
    ((Text.utf8 text.toList).map fun byte => armorValue byte.toNat)
  rw [List.foldl_map] at h
  exact h

theorem armorValue_utf8 (values : List Nat) (h : ∀ v ∈ values, v < 64) :
    (Text.utf8 (values.map armorChar)).map (fun byte => armorValue byte.toNat) = values := by
  have hascii : ∀ c ∈ values.map armorChar, Text.isAscii c = true := by
    intro c hc
    obtain ⟨v, -, rfl⟩ := List.mem_map.mp hc
    exact isAscii_armorChar v
  rw [Text.utf8_of_isAscii hascii, List.map_map, List.map_map]
  refine (List.map_congr_left fun v hv => ?_).trans (List.map_id values)
  have hrange := armorChar_range v
  show armorValue (UInt8.ofNat (armorChar v).toNat).toNat = v
  rw [UInt8.toNat_ofNat_of_lt' (show (armorChar v).toNat < 256 by omega), armorValue_armorChar,
    Nat.mod_eq_of_lt (h v hv)]

/-- An armored text gives the bits back that it carries, and zeros to its end. -/
theorem toList_ofArmor_armored :
    (ofArmor b.armored).toList = b.toList ++ List.replicate (fillBits b.length) false := by
  have hw : b.window 0 (6 * ((b.length + 5) / 6)) =
      b.toList ++ List.replicate (fillBits b.length) false := by
    rw [← length_add_fillBits, window_add, Nat.zero_add, window_of_length_le (Nat.le_refl _)]
    rfl
  rw [toList_ofArmor, toList_armored, armorValue_utf8 _ armorValues_lt, ← hw, ← codeBits_windows]
  simp only [Nat.zero_add]
  rfl

theorem length_ofArmor_armored : (ofArmor b.armored).length = b.length + fillBits b.length := by
  rw [← length_toList, toList_ofArmor_armored]
  simp

/-- Without the bits that were filled up, an armored text is the sequence that it carries. -/
theorem truncate_ofArmor_armored :
    (ofArmor b.armored).truncate ((ofArmor b.armored).length - fillBits b.length) = b := by
  apply ext_toList
  rw [toList_truncate, toList_ofArmor_armored, length_ofArmor_armored, Nat.add_sub_cancel,
    List.take_left' (length_toList b)]

/-! ## Texts of any bytes -/

/-- The codes of the characters from `0` to `W`, and from the backtick to `w`. -/
def IsArmor (code : Nat) : Prop :=
  48 ≤ code ∧ code ≤ 87 ∨ 96 ≤ code ∧ code ≤ 119

instance : DecidablePred IsArmor := fun _ =>
  inferInstanceAs (Decidable (_ ∨ _))

/-- The values of the bytes of a text. -/
def bytesValues (text : String) : List Nat :=
  (Text.utf8 text.toList).map fun byte => armorValue byte.toNat

variable {text : String}

theorem length_bytesValues : (bytesValues text).length = Text.byteLength text.toList :=
  List.length_map _

theorem armorValue_lt (byte : Nat) : armorValue byte < 64 := by
  unfold armorValue
  split
  · omega
  · split <;> omega

theorem bytesValues_lt : ∀ v ∈ bytesValues text, v < 64 := by
  intro v hv
  obtain ⟨byte, -, rfl⟩ := List.mem_map.mp hv
  exact armorValue_lt byte.toNat

/-- Every byte of a text gives six bits. -/
theorem length_ofArmor : (ofArmor text).length = 6 * Text.byteLength text.toList := by
  rw [← length_toList, toList_ofArmor, ← bytesValues, length_codeBits, length_bytesValues]

/-- The bits of a text are armored from the values of its bytes. -/
theorem armorValues_ofArmor : (ofArmor text).armorValues = bytesValues text := by
  have hwhole : (ofArmor text).window 0 (6 * (bytesValues text).length) =
      codeBits (bytesValues text) := by
    rw [length_bytesValues, ← length_ofArmor]
    exact toList_ofArmor text
  have hcount : ((ofArmor text).length + 5) / 6 = (bytesValues text).length := by
    rw [length_ofArmor, length_bytesValues]
    omega
  have hcodes := codes_of_window bytesValues_lt hwhole
  simp only [Nat.zero_add] at hcodes
  rw [armorValues, hcount, hcodes]

theorem toNat_armorChar (v : Nat) :
    (armorChar v).toNat = if v % 64 < 40 then v % 64 + 48 else v % 64 + 56 := by
  have h : v % 64 < 64 := Nat.mod_lt _ (by decide)
  unfold armorChar
  generalize v % 64 = u at h ⊢
  revert u
  decide

/-- The character of the value of a byte is that byte, or else a zero. -/
theorem toNat_armorChar_armorValue (byte : Nat) :
    (armorChar (armorValue byte)).toNat = if IsArmor byte then byte else 48 := by
  rw [toNat_armorChar, Nat.mod_eq_of_lt (armorValue_lt byte)]
  by_cases hlow : 48 ≤ byte ∧ byte ≤ 87
  · rw [if_pos (show IsArmor byte from .inl hlow), armorValue, if_pos hlow, if_pos (by omega)]
    omega
  · by_cases hhigh : 96 ≤ byte ∧ byte ≤ 119
    · rw [if_pos (show IsArmor byte from .inr hhigh), armorValue, if_neg hlow, if_pos hhigh,
        if_neg (by omega)]
      omega
    · rw [if_neg (show ¬ IsArmor byte from not_or.mpr ⟨hlow, hhigh⟩), armorValue, if_neg hlow,
        if_neg hhigh]
      rfl

/-- The text of the bits of a text is that text with zeros for the bytes that are no armor. -/
theorem utf8_armored_ofArmor : Text.utf8 (ofArmor text).armored.toList =
    (Text.utf8 text.toList).map fun byte => if IsArmor byte.toNat then byte else 48 := by
  rw [Text.utf8_of_isAscii fun _ => isAscii_of_mem_armored, toList_armored, armorValues_ofArmor,
    bytesValues, List.map_map, List.map_map]
  refine List.map_congr_left fun byte _ => ?_
  show UInt8.ofNat (armorChar (armorValue byte.toNat)).toNat = _
  rw [toNat_armorChar_armorValue]
  split
  · exact UInt8.ofNat_toNat
  · rfl

end Transponder.Bits

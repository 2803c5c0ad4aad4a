import Mathlib.Data.List.GetD
import Transponder.Proofs.Bits.Edits

/-!
# Opaque data is its bits

Opaque data comes as bytes with a count of bits. `unpacked` lists all the bits of some bytes. Data is
taken from bytes exactly when they have enough bits for the count (`exists_ofBytes_iff`), and what it
holds then are the first of them and nothing else: it has no byte too many, and zeros behind its last
bit (`holds_of_ofBytes`). So bytes that differ only behind the count give the same data
(`ofBytes_congr`), bytes that are used up are kept as they are (`bytes_of_ofBytes_whole`), and the
bytes and the count of any sequence of bits give the sequence back (`ofBytes_bytes`).
-/

namespace Transponder.Bits

variable {b c : Bits} {bytes bytes' : List UInt8} {xs : List Bool} {n : Nat}

/-- All the bits of some bytes, the most significant one of each byte first. -/
def unpacked (bytes : List UInt8) : List Bool :=
  bytes.flatMap fun byte => digits byte.toNat 8

theorem length_unpacked (bytes : List UInt8) : (unpacked bytes).length = 8 * bytes.length := by
  induction bytes with
  | nil => rfl
  | cons byte bytes ih =>
    rw [unpacked, List.flatMap_cons, List.length_append, length_digits, ← unpacked, ih,
      List.length_cons]
    omega

theorem getD_digits {i : Nat} (h : i < 8) (n : Nat) :
    (digits n 8).getD i false = n.testBit (7 - i) := by
  match i, h with
  | 0, _ | 1, _ | 2, _ | 3, _ | 4, _ | 5, _ | 6, _ | 7, _ => rfl

/-- The bits of bytes are those that are read out of them. -/
theorem getD_unpacked (bytes : List UInt8) (i : Nat) :
    (unpacked bytes).getD i false = packedBit bytes.toArray i := by
  induction bytes generalizing i with
  | nil => rfl
  | cons byte bytes ih =>
    have hcons : unpacked (byte :: bytes) = digits byte.toNat 8 ++ unpacked bytes := rfl
    have hlength := length_digits byte.toNat 8
    rw [hcons]
    by_cases hi : i < 8
    · have hfirst : packedBit (byte :: bytes).toArray i = byte.toNat.testBit (7 - i) := by
        have hdiv : i / 8 = 0 := by omega
        have hmod : i % 8 = i := Nat.mod_eq_of_lt hi
        rw [packedBit, hdiv, hmod]
        rfl
      rw [List.getD_append _ _ _ _ (by omega), getD_digits hi, hfirst]
    · have hrest : packedBit (byte :: bytes).toArray i = packedBit bytes.toArray (i - 8) := by
        have hdiv : i / 8 = (i - 8) / 8 + 1 := by omega
        have hmod : i % 8 = (i - 8) % 8 := by omega
        rw [packedBit, packedBit, hdiv, hmod]
        simp only [List.getElem?_toArray, List.getElem?_cons_succ]
      rw [List.getD_append_right _ _ _ _ (by omega), hlength, ih, hrest]

/-! ## Taking data from bytes -/

theorem ofBytes_of_le (h : n ≤ 8 * bytes.length) : ∃ hroom : (n + 7) / 8 ≤ bytes.toArray.size,
    ofBytes bytes n = .ok (cut bytes.toArray n hroom) := by
  have hroom : (n + 7) / 8 ≤ bytes.toArray.size := by
    rw [List.size_toArray]
    omega
  exact ⟨hroom, dif_pos hroom⟩

theorem le_of_ofBytes (h : ofBytes bytes n = .ok b) : b.length = n ∧ n ≤ 8 * bytes.length := by
  unfold ofBytes at h
  split at h
  case isTrue hroom =>
    cases h
    rw [List.size_toArray] at hroom
    exact ⟨rfl, by omega⟩
  case isFalse => cases h

/-- Data is taken from bytes that have enough bits. -/
theorem exists_ofBytes_iff : (∃ b, ofBytes bytes n = .ok b) ↔ n ≤ 8 * bytes.length := by
  constructor
  · rintro ⟨b, hb⟩
    exact (le_of_ofBytes hb).2
  · intro h
    obtain ⟨hroom, hb⟩ := ofBytes_of_le h
    exact ⟨_, hb⟩

theorem bit_of_ofBytes (h : ofBytes bytes n = .ok b) (i : Nat) :
    b.bit i = ((unpacked bytes).take n).getD i false := by
  obtain ⟨hroom, hb⟩ := ofBytes_of_le (le_of_ofBytes h).2
  obtain rfl : b = cut bytes.toArray n hroom := Except.ok.inj (h.symm.trans hb)
  have hbit : (cut bytes.toArray n hroom).bit i = (decide (i < n) && packedBit bytes.toArray i) :=
    packedBit_cutPacked bytes.toArray n i
  rw [hbit, ← getD_unpacked, List.getD_eq_getElem?_getD, List.getD_eq_getElem?_getD,
    List.getElem?_take]
  by_cases hi : i < n
  · rw [decide_eq_true hi, Bool.true_and, if_pos hi]
  · rw [decide_eq_false hi, Bool.false_and, if_neg hi, Option.getD_none]

/-- Data holds as many of the first bits as were counted, without a byte or a bit more. -/
theorem holds_of_ofBytes (h : ofBytes bytes n = .ok b) :
    Holds b.bytes b.length ((unpacked bytes).take n) where
  length := by
    obtain ⟨hlength, hle⟩ := le_of_ofBytes h
    rw [hlength, List.length_take, length_unpacked, Nat.min_eq_left hle]
  size := b.size_eq
  bit := bit_of_ofBytes h

/-- Bits with the same list are the same. -/
theorem Holds.eq (hb : Holds b.bytes b.length xs) (hc : Holds c.bytes c.length xs) : b = c := by
  refine bit_ext (hb.length.trans hc.length.symm) fun i _ => ?_
  exact (hb.bit i).trans (hc.bit i).symm

/-- What stands behind the counted bits is of no account. -/
theorem ofBytes_congr (h : n ≤ 8 * bytes.length) (h' : n ≤ 8 * bytes'.length)
    (htake : (unpacked bytes).take n = (unpacked bytes').take n) :
    ofBytes bytes n = ofBytes bytes' n := by
  obtain ⟨b, hb⟩ := exists_ofBytes_iff.mpr h
  obtain ⟨c, hc⟩ := exists_ofBytes_iff.mpr h'
  have hholds := holds_of_ofBytes hb
  rw [htake] at hholds
  rw [hb, hc, hholds.eq (holds_of_ofBytes hc)]

theorem toList_bytes_of_le (h : ofBytes bytes n = .ok b) (hfull : 8 * bytes.length ≤ n) :
    b.bytes.toList = bytes := by
  obtain ⟨-, hle⟩ := le_of_ofBytes h
  obtain rfl : n = 8 * bytes.length := by omega
  obtain ⟨hroom, hb⟩ := ofBytes_of_le (Nat.le_refl (8 * bytes.length))
  obtain rfl : b = cut bytes.toArray (8 * bytes.length) hroom := Except.ok.inj (h.symm.trans hb)
  have hcount : (8 * bytes.length + 7) / 8 = bytes.length := by omega
  have hmod : 8 * bytes.length % 8 = 0 := by omega
  show (cutPacked bytes.toArray (8 * bytes.length)).toList = bytes
  unfold cutPacked
  rw [if_pos hmod, hcount]
  simp

/-- Bytes of which all bits are counted are kept as they are. -/
theorem bytes_of_ofBytes_whole (bytes : List UInt8) :
    ∃ b, ofBytes bytes (8 * bytes.length) = .ok b ∧ b.bytes.toList = bytes := by
  obtain ⟨b, hb⟩ := exists_ofBytes_iff.mpr (Nat.le_refl (8 * bytes.length))
  exact ⟨b, hb, toList_bytes_of_le hb (Nat.le_refl _)⟩

/-- The bytes and the length of a sequence of bits give it back. -/
theorem ofBytes_bytes (b : Bits) : ofBytes b.bytes.toList b.length = .ok b := by
  have hroom : b.length ≤ 8 * b.bytes.toList.length := by
    rw [Array.length_toList, b.size_eq]
    omega
  obtain ⟨c, hc⟩ := exists_ofBytes_iff.mpr hroom
  obtain ⟨hlength, -⟩ := le_of_ofBytes hc
  rw [hc]
  refine congrArg Except.ok (bit_ext hlength fun i hi => ?_)
  rw [hlength] at hi
  rw [bit_of_ofBytes hc, List.getD_eq_getElem?_getD, List.getElem?_take, if_pos hi,
    ← List.getD_eq_getElem?_getD, getD_unpacked]
  rfl

end Transponder.Bits

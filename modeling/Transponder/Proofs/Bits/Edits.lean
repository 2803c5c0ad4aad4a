import Transponder.Bits.Bytes
import Transponder.Proofs.Bits.Armor

/-!
# Packed bits are a list of bits

Every sequence of bits, wherever it comes from and whatever was done to it, holds a list: its bytes
are just enough for the length of the list, the bits of the bytes are the items of the list, and
past them there are zeros (`Holds`). `Made` puts each way to come by a sequence beside what it is
for lists, where it is plain: bits are appended, the first ones are kept, or a range is taken out.
The two agree in every order of growing and cutting (`Made.toList_eq`), although growing only ever
sets bits of the last byte and relies on what was cut off being zero.

`refines_list` puts this together with what is read: ranges, numbers and whether two sequences are
the same. A number is gathered in a word of 64 bits, which is wide enough (`toNat_gathered`). There
is no sequence that cannot be made (`made`), so all this holds of every sequence and its own list
(`refines_toList`).
-/

namespace Transponder.Bits

-- Powers are those of `Nat` and `Int` themselves.
attribute [local instance (high)] instPowNat

variable {b c : Bits} {xs : List Bool} {offset width n : Nat}

/-- Bytes and a count of bits that hold a list, with nothing to spare and zeros behind it. -/
structure Holds (bytes : Array UInt8) (n : Nat) (xs : List Bool) : Prop where
  length : n = xs.length
  size : bytes.size = (n + 7) / 8
  bit : ∀ i, packedBit bytes i = xs.getD i false

theorem holds (b : Bits) : Holds b.bytes b.length b.toList where
  length := (length_toList b).symm
  size := b.size_eq
  bit i := by
    rw [List.getD_eq_getElem?_getD]
    by_cases hi : i < b.toList.length
    · rw [List.getElem?_eq_getElem hi, Option.getD_some, getElem_toList]
      rfl
    · rw [List.getElem?_eq_none (Nat.le_of_not_lt hi), Option.getD_none]
      exact b.padding i (by rw [length_toList] at hi; omega)

/-! ## Reading -/

/-- The number that some bits write, most significant first. -/
def bigEndian : List Bool → Nat
  | [] => 0
  | x :: xs => x.toNat * 2 ^ xs.length + bigEndian xs

theorem foldl_eq_bigEndian (xs : List Bool) (n : Nat) :
    xs.foldl (fun n x => 2 * n + x.toNat) n = n * 2 ^ xs.length + bigEndian xs := by
  induction xs generalizing n with
  | nil => simp [bigEndian]
  | cons x xs ih =>
    have hdouble : 2 * n * 2 ^ xs.length = n * 2 ^ (xs.length + 1) := by
      rw [Nat.pow_succ, Nat.mul_comm 2 n, Nat.mul_assoc, Nat.mul_comm 2]
    rw [List.foldl_cons, ih, bigEndian, List.length_cons, Nat.add_mul, hdouble, Nat.add_assoc]

theorem value_eq_bigEndian (xs : List Bool) : value xs = bigEndian xs := by
  rw [value, foldl_eq_bigEndian, Nat.zero_mul, Nat.zero_add]

section CheckRange

variable {α : Type} {x y : α}

theorem checkRange_bind_eq_ok_iff :
    (b.checkRange offset width >>= fun _ => pure x) = .ok y ↔ offset + width ≤ b.length ∧ x = y := by
  by_cases h : offset + width ≤ b.length
  · rw [checkRange, if_pos h]
    exact ⟨fun hy => ⟨h, Except.ok.inj hy⟩, fun hy => congrArg Except.ok hy.2⟩
  · rw [checkRange, if_neg h]
    exact ⟨(nomatch ·), fun hy => absurd hy.1 h⟩

theorem checkRange_bind_eq_error_iff :
    (b.checkRange offset width >>= fun _ => pure x) = .error (.truncated offset width b.length) ↔
      b.length < offset + width := by
  by_cases h : offset + width ≤ b.length
  · rw [checkRange, if_pos h]
    exact ⟨(nomatch ·), fun hx => absurd h (Nat.not_le.mpr hx)⟩
  · rw [checkRange, if_neg h]
    exact ⟨fun _ => Nat.not_le.mp h, fun _ => rfl⟩

end CheckRange

/-- A word with one bit more at its low end. -/
def gather (word : UInt64) (x : Bool) : UInt64 :=
  word <<< 1 ||| if x then 1 else 0

theorem toNat_gather {word : UInt64} (h : word.toNat < 2 ^ (63 : Nat)) (x : Bool) :
    (gather word x).toNat = 2 * word.toNat + x.toNat := by
  have hone : (1 : UInt64).toNat % 64 = 1 := rfl
  have hbit : (if x then 1 else 0 : UInt64).toNat = x.toNat := by cases x <;> rfl
  have hlt : word.toNat <<< 1 < 2 ^ (64 : Nat) := by
    rw [Nat.shiftLeft_eq]
    omega
  rw [gather, UInt64.toNat_or, UInt64.toNat_shiftLeft, hone, Nat.mod_eq_of_lt hlt, hbit,
    ← Nat.shiftLeft_add_eq_or_of_lt (by simpa using x.toNat_lt), Nat.shiftLeft_eq]
  omega

theorem toNat_foldl_gather (xs : List Bool) (word : UInt64)
    (h : (word.toNat + 1) * 2 ^ xs.length ≤ 2 ^ (64 : Nat)) :
    (xs.foldl gather word).toNat = word.toNat * 2 ^ xs.length + bigEndian xs := by
  induction xs generalizing word with
  | nil => simp [bigEndian]
  | cons x xs ih =>
    rw [List.length_cons, Nat.pow_succ', ← Nat.mul_assoc] at h
    have hhalf : (word.toNat + 1) * 2 ≤ 2 ^ (64 : Nat) :=
      Nat.le_trans (Nat.le_mul_of_pos_right _ (Nat.two_pow_pos _)) h
    have hstep := toNat_gather (show word.toNat < 2 ^ (63 : Nat) by omega) x
    have hroom : ((gather word x).toNat + 1) * 2 ^ xs.length ≤ 2 ^ (64 : Nat) := by
      refine Nat.le_trans (Nat.mul_le_mul_right _ ?_) h
      have hx := x.toNat_lt
      omega
    have hdouble : 2 * word.toNat * 2 ^ xs.length = word.toNat * 2 ^ (xs.length + 1) := by
      rw [Nat.pow_succ', Nat.mul_comm 2, Nat.mul_assoc]
    rw [List.foldl_cons, ih _ hroom, hstep, Nat.add_mul, hdouble, bigEndian, List.length_cons,
      Nat.add_assoc]

/-- A number of up to 64 bits can be gathered in a word. -/
theorem toNat_gathered (h : xs.length ≤ 64) :
    (xs.foldl gather 0).toNat = bigEndian xs := by
  have hle : 2 ^ xs.length ≤ 2 ^ (64 : Nat) := Nat.pow_le_pow_right (by decide) h
  have hzero : (0 : UInt64).toNat = 0 := rfl
  rw [toNat_foldl_gather, hzero, Nat.zero_mul, Nat.zero_add]
  rwa [hzero, Nat.zero_add, Nat.one_mul]

theorem slice_eq_error_iff : b.slice offset width = .error (.truncated offset width b.length) ↔
    b.length < offset + width :=
  checkRange_bind_eq_error_iff

theorem slice_eq_ok_iff : b.slice offset width = .ok c ↔
    offset + width ≤ b.length ∧ c.toList = (b.toList.drop offset).take width := by
  refine checkRange_bind_eq_ok_iff.trans (and_congr_right fun h => ?_)
  rw [window_eq b h]
  constructor
  · rintro rfl
    exact toList_ofList _
  · intro hc
    rw [← hc, ofList_toList]

theorem uintAt_eq_error_iff : b.uintAt offset width = .error (.truncated offset width b.length) ↔
    b.length < offset + width :=
  checkRange_bind_eq_error_iff

theorem uintAt_eq_ok_iff : b.uintAt offset width = .ok n ↔
    offset + width ≤ b.length ∧ n = bigEndian ((b.toList.drop offset).take width) := by
  refine checkRange_bind_eq_ok_iff.trans (and_congr_right fun h => ?_)
  rw [window_eq b h, value_eq_bigEndian]
  exact eq_comm

theorem beq_iff_toList : (b == c) = true ↔ b.toList = c.toList := by
  rw [beq_iff_eq]
  exact ⟨congrArg toList, ext_toList⟩

/-- A number that was written last is read back. -/
theorem uintAt_pushUint (b : Bits) (h : n < 2 ^ width) :
    (b.pushUint n width).uintAt b.length width = .ok n := by
  have hlength : (b.pushUint n width).length = b.length + width := by
    rw [← length_toList, toList_pushUint, List.length_append, length_toList, length_digits]
  refine uintAt_eq_ok_iff.mpr ⟨Nat.le_of_eq hlength.symm, ?_⟩
  rw [toList_pushUint, ← length_toList b, List.drop_left, ← value_eq_bigEndian,
    List.take_of_length_le (Nat.le_of_eq (length_digits n width)), value_digits, Nat.mod_eq_of_lt h]

/-- An integer that was written last in two's complement is read back. -/
theorem intAt_pushUint {i : Int} (b : Bits) (hpos : 0 < width) (hlow : -2 ^ (width - 1) ≤ i)
    (hhigh : i < 2 ^ (width - 1)) :
    (b.pushUint (i % 2 ^ width).toNat width).intAt b.length width = .ok i := by
  have hlt : (i % 2 ^ width).toNat < 2 ^ width := by
    have hmod := Int.emod_lt_of_pos i (Int.pow_pos (by decide : (0 : Int) < 2) (m := width))
    have hcast : ((2 ^ width : Nat) : Int) = (2 : Int) ^ width := by simp
    omega
  rw [intAt, uintAt_pushUint b hlt]
  exact congrArg Except.ok (signed_emod hpos hlow hhigh)

/-! ## Growing and cutting -/

/-- The low bits of a word, most significant first, and zeros above them. -/
def wordBits (value : UInt64) (width : Nat) : List Bool :=
  (List.range width).reverse.map fun shift =>
    decide (shift < 64) && (value >>> UInt64.ofNat shift) &&& 1 == 1

theorem testBit_eq_wordBit (value : UInt64) (shift : Nat) : value.toNat.testBit shift =
    (decide (shift < 64) && (value >>> UInt64.ofNat shift) &&& 1 == 1) := by
  by_cases hs : shift < 64
  · have hsize : shift < UInt64.size := Nat.lt_trans hs (by decide)
    rw [decide_eq_true hs, Bool.true_and, Nat.testBit_eq_decide_div_mod_eq, Bool.eq_iff_iff,
      beq_iff_eq, ← UInt64.toNat_inj, UInt64.toNat_and, UInt64.toNat_shiftRight,
      UInt64.toNat_ofNat_of_lt' hsize, Nat.mod_eq_of_lt hs, Nat.shiftRight_eq_div_pow,
      decide_eq_true_iff]
    show _ ↔ _ &&& 1 = 1
    rw [Nat.and_one_is_mod]
  · rw [decide_eq_false hs, Bool.false_and]
    exact Nat.testBit_lt_two_pow (Nat.lt_of_lt_of_le value.toNat_lt
      (Nat.pow_le_pow_right (by decide) (Nat.le_of_not_lt hs)))

theorem digits_eq_wordBits (value : UInt64) (width : Nat) :
    digits value.toNat width = wordBits value width :=
  List.map_congr_left fun shift _ => testBit_eq_wordBit value shift

/-- How a sequence can come about, and the list that comes about in the same way. -/
inductive Made : Bits → List Bool → Prop where
  | empty : Made empty []
  | armor (text : String) : Made (ofArmor text)
    ((Text.utf8 text.toList).flatMap fun byte => digits (armorValue byte.toNat) 6)
  | payload {b : Bits} {bytes : List UInt8} {length : Nat} (h : ofBytes bytes length = .ok b) :
    Made b ((List.range length).map (packedBit bytes.toArray))
  | slice {b c : Bits} {xs : List Bool} {offset width : Nat} (hb : Made b xs)
    (h : b.slice offset width = .ok c) : Made c ((xs.drop offset).take width)
  | push {b : Bits} {xs : List Bool} (hb : Made b xs) (x : Bool) : Made (b.push x) (xs ++ [x])
  | pushUint {b : Bits} {xs : List Bool} (hb : Made b xs) (value : UInt64) (width : Nat) :
    Made (b.pushUint value.toNat width) (xs ++ wordBits value width)
  | truncate {b : Bits} {xs : List Bool} (hb : Made b xs) (n : Nat) :
    Made (b.truncate n) (xs.take n)
  | extend {b other : Bits} {xs ys : List Bool} (hb : Made b xs) (ho : Made other ys) :
    Made (b.extend other) (xs ++ ys)

theorem toList_ofArmor_flatMap (text : String) : (ofArmor text).toList =
    (Text.utf8 text.toList).flatMap fun byte => digits (armorValue byte.toNat) 6 := by
  rw [toList_ofArmor, codeBits, List.flatMap_map]

theorem toList_ofBytes {bytes : List UInt8} {length : Nat} (h : ofBytes bytes length = .ok b) :
    b.toList = (List.range length).map (packedBit bytes.toArray) := by
  unfold ofBytes at h
  split at h
  case isFalse => cases h
  case isTrue hle =>
    cases h
    refine List.map_congr_left fun i hi => ?_
    have hlt : i < length := List.mem_range.mp hi
    show packedBit (cutPacked bytes.toArray length) (0 + i) = _
    rw [packedBit_cutPacked, Nat.zero_add, decide_eq_true hlt, Bool.true_and]

/-- A sequence is the list that it was made with. -/
theorem Made.toList_eq (h : Made b xs) : b.toList = xs := by
  induction h with
  | empty => rfl
  | armor text => exact toList_ofArmor_flatMap text
  | payload h => exact toList_ofBytes h
  | slice hb h ih =>
    rw [slice_eq_ok_iff, ih] at h
    exact h.2
  | push hb x ih => rw [toList_push, ih]
  | pushUint hb value width ih => rw [toList_pushUint, ih, digits_eq_wordBits]
  | truncate hb n ih => rw [toList_truncate, ih]
  | extend hb ho ih iho => rw [toList_extend, ih, iho]

theorem Made.append (h : Made b xs) (ys : List Bool) : Made (b.append ys) (xs ++ ys) := by
  induction ys generalizing b xs with
  | nil => rwa [List.append_nil]
  | cons y ys ih =>
    have hmade := ih (h.push y)
    rwa [List.append_assoc] at hmade

/-- There are no other sequences than those that can come about. -/
theorem made (b : Bits) : Made b b.toList := by
  have hmade := Made.empty.append b.toList
  rwa [List.nil_append, ← ofList, ofList_toList] at hmade

/-- Every sequence can be made with its own list: its bytes hold this list, reading it is reading the
list, and it is the same as another sequence if their lists are. -/
theorem refines_toList (b : Bits) :
    Made b b.toList ∧ Holds b.bytes b.length b.toList ∧
      (∀ offset width,
        (b.slice offset width = .error (.truncated offset width b.toList.length) ↔
          b.toList.length < offset + width) ∧
        (b.uintAt offset width = .error (.truncated offset width b.toList.length) ↔
          b.toList.length < offset + width) ∧
        (∀ c, b.slice offset width = .ok c ↔
          offset + width ≤ b.toList.length ∧ c.toList = (b.toList.drop offset).take width) ∧
        (∀ n, b.uintAt offset width = .ok n ↔
          offset + width ≤ b.toList.length ∧ n = bigEndian ((b.toList.drop offset).take width)) ∧
        ∀ n, b.uintAt offset width = .ok n → width ≤ 64 →
          (((b.toList.drop offset).take width).foldl gather 0).toNat = n) ∧
      ∀ c : Bits, (b == c) = true ↔ b.toList = c.toList := by
  refine ⟨b.made, b.holds, fun offset width => ?_, fun c => beq_iff_toList⟩
  rw [length_toList]
  refine ⟨slice_eq_error_iff, uintAt_eq_error_iff, fun c => slice_eq_ok_iff,
    fun n => uintAt_eq_ok_iff, fun n hn hw => ?_⟩
  rw [(uintAt_eq_ok_iff.mp hn).2]
  exact toNat_gathered (Nat.le_trans (List.length_take_le _ _) hw)

/-- However a sequence came about, its bytes hold its list, and reading it is reading the list. Ranges
are compared as numbers, so one of which the end is out of bounds for a machine is refused as well. -/
theorem refines_list (h : Made b xs) :
    Holds b.bytes b.length xs ∧
      (∀ offset width,
        (b.slice offset width = .error (.truncated offset width xs.length) ↔
          xs.length < offset + width) ∧
        (b.uintAt offset width = .error (.truncated offset width xs.length) ↔
          xs.length < offset + width) ∧
        (∀ c, b.slice offset width = .ok c ↔
          offset + width ≤ xs.length ∧ c.toList = (xs.drop offset).take width) ∧
        (∀ n, b.uintAt offset width = .ok n ↔
          offset + width ≤ xs.length ∧ n = bigEndian ((xs.drop offset).take width)) ∧
        ∀ n, b.uintAt offset width = .ok n → width ≤ 64 →
          (((xs.drop offset).take width).foldl gather 0).toNat = n) ∧
      ∀ c ys, Made c ys → ((b == c) = true ↔ xs = ys) := by
  obtain rfl := h.toList_eq
  obtain ⟨-, hholds, hreads, hsame⟩ := b.refines_toList
  exact ⟨hholds, hreads, fun c ys hc => hc.toList_eq ▸ hsame c⟩

/-- Sixteen ones, cut to ten within a byte, and a number written behind them. -/
def regrown : Bits :=
  ((empty.pushUint (0xFFFF : UInt64).toNat 16).truncate 10).pushUint (2 : UInt64).toNat 3

-- Cutting clears what it leaves in the last byte, so the bits pushed next are as given.
theorem refines_list_regrown :
    ∃ xs, Made regrown xs ∧ xs = List.replicate 10 true ++ [false, true, false] ∧
      Holds regrown.bytes regrown.length xs ∧ regrown.slice 4 10 = .error (.truncated 4 10 13) := by
  have hmade : Made regrown _ := ((Made.empty.pushUint 0xFFFF 16).truncate 10).pushUint 2 3
  obtain ⟨hholds, hreads, -⟩ := refines_list hmade
  refine ⟨_, hmade, by decide, hholds, ?_⟩
  exact (hreads 4 10).1.mpr (by decide)

end Transponder.Bits

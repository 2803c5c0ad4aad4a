/-!
# Packed bit sequences

A `Bits` is a sequence of bits packed into bytes, the most significant bit of a byte first. Two
proof fields make the packing canonical: there are exactly as many bytes as the length needs, and the
bits of the last byte past the length are zero. `toList` is the sequence itself; every operation is
described by what it does to it (`toList_push`, `toList_pushUint`, `toList_truncate`), and two
sequences are equal when their lists are (`ext_toList`).

Two operations touch the bytes: `push` sets a bit of the last one, and `cut` drops bytes and clears
the rest of the one that is the last then. The others are written by way of these.
-/

namespace Transponder

-- Powers are those of `Nat` and `Int` themselves.
attribute [local instance (high)] instPowNat

/-- The bit at a position of packed bytes; past the last byte there are zeros. -/
def packedBit (bytes : Array UInt8) (i : Nat) : Bool :=
  match bytes[i / 8]? with
  | some w => w.toNat.testBit (7 - i % 8)
  | none => false

/-- Packed bytes of `n` bits with one bit more. -/
def pushPacked (bytes : Array UInt8) (n : Nat) (x : Bool) : Array UInt8 :=
  let room := if n % 8 = 0 then bytes.push 0 else bytes
  if x then room.modify (n / 8) (· ||| UInt8.ofNat (2 ^ (7 - n % 8))) else room

theorem size_pushPacked (bytes : Array UInt8) (n : Nat) (x : Bool)
    (h : bytes.size = (n + 7) / 8) : (pushPacked bytes n x).size = (n + 1 + 7) / 8 := by
  unfold pushPacked
  by_cases h8 : n % 8 = 0 <;> cases x <;> simp [h8, h] <;> omega

theorem packedBit_push_zero (bytes : Array UInt8) (i : Nat) :
    packedBit (bytes.push 0) i = packedBit bytes i := by
  unfold packedBit
  by_cases h : i / 8 = bytes.size
  · rw [h, Array.getElem?_push_size, Array.getElem?_eq_none (Nat.le_refl _)]
    simp
  · rw [Array.getElem?_push, if_neg h]

theorem packedBit_modify (bytes : Array UInt8) (n i : Nat) (h : n / 8 < bytes.size) :
    packedBit (bytes.modify (n / 8) (· ||| UInt8.ofNat (2 ^ (7 - n % 8)))) i =
      (i == n || packedBit bytes i) := by
  unfold packedBit
  rw [Array.getElem?_modify]
  have hp : 2 ^ (7 - n % 8) < 256 :=
    Nat.lt_of_lt_of_le (Nat.pow_lt_pow_right (by decide) (by omega : 7 - n % 8 < 8)) (by decide)
  by_cases hi : n / 8 = i / 8
  · rw [if_pos hi, ← hi]
    simp only [Array.getElem?_eq_getElem h, Option.map_some, UInt8.toNat_or, Nat.testBit_or,
      UInt8.toNat_ofNat', Nat.mod_eq_of_lt hp, Nat.testBit_two_pow]
    rw [Bool.or_comm]
    congr 1
    by_cases he : i = n
    · subst he; simp
    · have : 7 - n % 8 ≠ 7 - i % 8 := by omega
      simp [he, this]
  · rw [if_neg hi]
    have : (i == n) = false := by
      simp only [beq_eq_false_iff_ne, ne_eq]
      intro e
      exact hi (by rw [e])
    rw [this, Bool.false_or]

theorem packedBit_pushPacked (bytes : Array UInt8) (n i : Nat) (x : Bool)
    (h : bytes.size = (n + 7) / 8) :
    packedBit (pushPacked bytes n x) i = (x && i == n || packedBit bytes i) := by
  unfold pushPacked
  have room : ∀ i, packedBit (if n % 8 = 0 then bytes.push 0 else bytes) i = packedBit bytes i := by
    intro i
    split
    · exact packedBit_push_zero bytes i
    · rfl
  cases x with
  | false => simp [room]
  | true =>
    simp only [if_true, Bool.true_and]
    rw [packedBit_modify, room]
    split
    · rw [Array.size_push]; omega
    · omega

/-- The bytes of the first `n` bits, without what the last byte holds past them. -/
def cutPacked (bytes : Array UInt8) (n : Nat) : Array UInt8 :=
  let kept := bytes.take ((n + 7) / 8)
  if n % 8 = 0 then kept else kept.modify (n / 8) (· &&& UInt8.ofNat (255 <<< (8 - n % 8)))

theorem size_cutPacked (bytes : Array UInt8) (n : Nat) (h : (n + 7) / 8 ≤ bytes.size) :
    (cutPacked bytes n).size = (n + 7) / 8 := by
  unfold cutPacked
  by_cases h8 : n % 8 = 0 <;> simp [h8, h]

theorem testBit_cutMask : ∀ r < 8, ∀ j < 8,
    (UInt8.ofNat (255 <<< (8 - r))).toNat.testBit (7 - j) = decide (j < r) := by
  decide

theorem packedBit_take (bytes : Array UInt8) (count i : Nat) :
    packedBit (bytes.take count) i = (decide (i / 8 < count) && packedBit bytes i) := by
  unfold packedBit
  rw [Array.take_eq_extract, Array.getElem?_extract, Nat.sub_zero, Nat.zero_add]
  by_cases hc : i / 8 < count
  · rw [decide_eq_true hc, Bool.true_and]
    by_cases hs : i / 8 < bytes.size
    · rw [if_pos (by omega)]
    · rw [if_neg (by omega), Array.getElem?_eq_none (by omega)]
  · rw [decide_eq_false hc, Bool.false_and, if_neg (by omega)]

theorem packedBit_cutPacked (bytes : Array UInt8) (n i : Nat) :
    packedBit (cutPacked bytes n) i = (decide (i < n) && packedBit bytes i) := by
  have hkept := packedBit_take bytes ((n + 7) / 8) i
  unfold cutPacked
  dsimp only
  split
  · rw [hkept]
    congr 2
    exact propext (by omega)
  · by_cases hi : n / 8 = i / 8
    · -- In the last byte the mask decides, and that byte is kept.
      have hmask := testBit_cutMask (n % 8) (by omega) (i % 8) (by omega)
      have hlt : decide (i % 8 < n % 8) = decide (i < n) := by
        congr 1
        exact propext (by omega)
      rw [decide_eq_true (by omega : i / 8 < (n + 7) / 8), Bool.true_and] at hkept
      unfold packedBit at hkept ⊢
      rw [Array.getElem?_modify, if_pos hi, ← hkept]
      cases (bytes.take ((n + 7) / 8))[i / 8]? with
      | none => rw [Option.map_none, Bool.and_false]
      | some w =>
        rw [Option.map_some]
        show (w &&& _).toNat.testBit _ = _
        rw [UInt8.toNat_and, Nat.testBit_and, hmask, hlt, Bool.and_comm]
    · have hsame : packedBit ((bytes.take ((n + 7) / 8)).modify (n / 8)
          (· &&& UInt8.ofNat (255 <<< (8 - n % 8)))) i =
            packedBit (bytes.take ((n + 7) / 8)) i := by
        unfold packedBit
        rw [Array.getElem?_modify, if_neg hi]
      rw [hsame, hkept]
      congr 2
      exact propext (by omega)

/-- A sequence of bits packed into bytes. -/
structure Bits where
  bytes : Array UInt8
  length : Nat
  size_eq : bytes.size = (length + 7) / 8
  padding : ∀ i, length ≤ i → packedBit bytes i = false
deriving DecidableEq

namespace Bits

/-- No bits. -/
def empty : Bits :=
  ⟨#[], 0, rfl, fun _ _ => rfl⟩

instance : Inhabited Bits :=
  ⟨empty⟩

/-- The bit at a position; false past the end. -/
def bit (b : Bits) (i : Nat) : Bool :=
  packedBit b.bytes i

/-- Appends one bit. -/
def push (b : Bits) (x : Bool) : Bits where
  bytes := pushPacked b.bytes b.length x
  length := b.length + 1
  size_eq := size_pushPacked b.bytes b.length x b.size_eq
  padding := by
    intro i hi
    rw [packedBit_pushPacked _ _ _ _ b.size_eq, b.padding i (by omega)]
    have : (i == b.length) = false := by
      simp only [beq_eq_false_iff_ne, ne_eq]
      omega
    simp [this]

/-- The first `n` bits of some bytes. -/
def cut (bytes : Array UInt8) (n : Nat) (h : (n + 7) / 8 ≤ bytes.size) : Bits where
  bytes := cutPacked bytes n
  length := n
  size_eq := size_cutPacked bytes n h
  padding := by
    intro i hi
    rw [packedBit_cutPacked, decide_eq_false (by omega : ¬i < n), Bool.false_and]

/-- Appends a list of bits. -/
def append (b : Bits) (xs : List Bool) : Bits :=
  xs.foldl push b

/-- The `width` bits from `offset` on, false past the end. -/
def window (b : Bits) (offset width : Nat) : List Bool :=
  (List.range width).map fun i => b.bit (offset + i)

/-- The bits in order. -/
def toList (b : Bits) : List Bool :=
  b.window 0 b.length

/-- The sequence of the bits of a list. -/
def ofList (xs : List Bool) : Bits :=
  empty.append xs

/-- The low `width` bits of a number, most significant first. -/
def digits (value width : Nat) : List Bool :=
  (List.range width).reverse.map value.testBit

/-- The number whose binary digits these are, most significant first. -/
def value (xs : List Bool) : Nat :=
  xs.foldl (fun n x => 2 * n + x.toNat) 0

/-- Appends the low `width` bits of a number, most significant first. -/
def pushUint (b : Bits) (value width : Nat) : Bits :=
  b.append (digits value width)

/-- Appends another sequence. -/
def extend (b other : Bits) : Bits :=
  b.append other.toList

/-- The first `n` bits, or all of them if there are fewer. -/
def truncate (b : Bits) (n : Nat) : Bits :=
  if h : b.length ≤ n then b
  else cut b.bytes n (by rw [b.size_eq]; omega)

@[simp] theorem length_empty : empty.length = 0 := rfl

@[simp] theorem length_push (b : Bits) (x : Bool) : (b.push x).length = b.length + 1 := rfl

@[simp] theorem length_append (b : Bits) (xs : List Bool) :
    (b.append xs).length = b.length + xs.length := by
  induction xs generalizing b with
  | nil => rfl
  | cons x xs ih =>
    show ((b.push x).append xs).length = _
    rw [ih, length_push, List.length_cons]
    omega

@[simp] theorem length_window (b : Bits) (offset width : Nat) :
    (b.window offset width).length = width := by
  simp [window]

@[simp] theorem length_toList (b : Bits) : b.toList.length = b.length := by
  simp [toList]

theorem bit_push (b : Bits) (x : Bool) (i : Nat) :
    (b.push x).bit i = (x && i == b.length || b.bit i) :=
  packedBit_pushPacked b.bytes b.length i x b.size_eq

theorem bit_of_length_le (b : Bits) {i : Nat} (h : b.length ≤ i) : b.bit i = false :=
  b.padding i h

theorem getElem_toList (b : Bits) {i : Nat} (h : i < b.toList.length) : b.toList[i] = b.bit i := by
  simp [toList, window]

@[simp] theorem toList_empty : empty.toList = [] := rfl

@[simp] theorem toList_push (b : Bits) (x : Bool) : (b.push x).toList = b.toList ++ [x] := by
  apply List.ext_getElem
  · simp
  · intro i h₁ h₂
    rw [getElem_toList, bit_push]
    have hi : i < b.length + 1 := by simpa using h₁
    by_cases h : i < b.length
    · rw [List.getElem_append_left (by simpa using h), getElem_toList]
      have : (i == b.length) = false := by
        simp only [beq_eq_false_iff_ne, ne_eq]
        omega
      simp [this]
    · have : i = b.length := by omega
      subst this
      rw [List.getElem_append_right (by simp)]
      simp [b.bit_of_length_le (Nat.le_refl _)]

@[simp] theorem toList_append (b : Bits) (xs : List Bool) :
    (b.append xs).toList = b.toList ++ xs := by
  induction xs generalizing b with
  | nil => simp [append]
  | cons x xs ih =>
    show ((b.push x).append xs).toList = _
    rw [ih, toList_push, List.append_assoc, List.singleton_append]

@[simp] theorem toList_ofList (xs : List Bool) : (ofList xs).toList = xs := by
  simp [ofList]

@[simp] theorem length_ofList (xs : List Bool) : (ofList xs).length = xs.length := by
  simp [ofList]

@[simp] theorem toList_pushUint (b : Bits) (value width : Nat) :
    (b.pushUint value width).toList = b.toList ++ digits value width :=
  toList_append _ _

@[simp] theorem toList_extend (b other : Bits) :
    (b.extend other).toList = b.toList ++ other.toList :=
  toList_append _ _

theorem window_eq (b : Bits) {offset width : Nat} (h : offset + width ≤ b.length) :
    b.window offset width = (b.toList.drop offset).take width := by
  apply List.ext_getElem
  · simp
    omega
  · intro i h₁ h₂
    rw [List.getElem_take, List.getElem_drop, getElem_toList]
    simp [window]

@[simp] theorem length_truncate (b : Bits) (n : Nat) :
    (b.truncate n).length = min n b.length := by
  unfold truncate
  split
  case isTrue h => exact (Nat.min_eq_right h).symm
  case isFalse h => exact (Nat.min_eq_left (Nat.le_of_not_le h)).symm

theorem bit_truncate (b : Bits) (n i : Nat) :
    (b.truncate n).bit i = (decide (i < n) && b.bit i) := by
  unfold truncate
  split
  case isTrue h =>
    by_cases hi : i < n
    · rw [decide_eq_true hi, Bool.true_and]
    · rw [decide_eq_false hi, Bool.false_and, b.bit_of_length_le (by omega)]
  case isFalse => exact packedBit_cutPacked b.bytes n i

@[simp] theorem toList_truncate (b : Bits) (n : Nat) :
    (b.truncate n).toList = b.toList.take n := by
  apply List.ext_getElem
  · simp
  · intro i h₁ h₂
    have hi : i < n := by
      rw [length_toList, length_truncate] at h₁
      omega
    rw [getElem_toList, bit_truncate, decide_eq_true hi, Bool.true_and, List.getElem_take,
      getElem_toList]

theorem bit_ext {b c : Bits} (hl : b.length = c.length) (h : ∀ i < b.length, b.bit i = c.bit i) :
    b = c := by
  have hall : ∀ i, packedBit b.bytes i = packedBit c.bytes i := by
    intro i
    by_cases hi : i < b.length
    · exact h i hi
    · rw [b.padding i (by omega), c.padding i (by omega)]
  have hb : b.bytes = c.bytes := by
    apply Array.ext
    · rw [b.size_eq, c.size_eq, hl]
    · intro j h₁ h₂
      apply UInt8.toNat_inj.mp
      apply Nat.eq_of_testBit_eq
      intro k
      by_cases hk : k < 8
      · have := hall (8 * j + (7 - k))
        unfold packedBit at this
        have e : (8 * j + (7 - k)) / 8 = j := by omega
        have e' : 7 - (8 * j + (7 - k)) % 8 = k := by omega
        rw [e, e', Array.getElem?_eq_getElem h₁, Array.getElem?_eq_getElem h₂] at this
        exact this
      · have lt : ∀ w : UInt8, w.toNat.testBit k = false := fun w =>
          Nat.testBit_lt_two_pow (Nat.lt_of_lt_of_le w.toNat_lt
            (Nat.pow_le_pow_right (by decide) (by omega)))
        rw [lt, lt]
  cases b
  cases c
  simp only at hl hb
  subst hl hb
  rfl

theorem ext_toList {b c : Bits} (h : b.toList = c.toList) : b = c := by
  have hl : b.length = c.length := by
    rw [← length_toList, h, length_toList]
  refine bit_ext hl fun i hi => ?_
  rw [← getElem_toList b (by simpa using hi), ← getElem_toList c (by simpa [← hl] using hi)]
  simp only [h]

@[simp] theorem ofList_toList (b : Bits) : ofList b.toList = b :=
  ext_toList (toList_ofList _)

@[simp] theorem length_digits (value width : Nat) : (digits value width).length = width := by
  simp [digits]

theorem digits_succ (value width : Nat) :
    digits value (width + 1) = value.testBit width :: digits value width := by
  simp [digits, List.range_succ]

theorem value_append_singleton (xs : List Bool) (x : Bool) :
    Bits.value (xs ++ [x]) = 2 * Bits.value xs + x.toNat := by
  simp [Bits.value]

theorem digits_div_two (n width : Nat) :
    digits n (width + 1) = digits (n / 2) width ++ [n.testBit 0] := by
  induction width with
  | zero => simp [digits]
  | succ w ih => rw [digits_succ, ih, digits_succ, Nat.testBit_succ, List.cons_append]

/-- Writing a number and reading the digits back keeps the number modulo the width. -/
theorem value_digits (n width : Nat) : Bits.value (digits n width) = n % 2 ^ width := by
  induction width generalizing n with
  | zero => simp [digits, Bits.value, Nat.mod_one]
  | succ w ih =>
    rw [digits_div_two, value_append_singleton, ih]
    have h0 : (n.testBit 0).toNat = n % 2 := by
      rw [Nat.testBit_zero]
      rcases Nat.mod_two_eq_zero_or_one n with h | h <;> simp [h]
    rw [h0, Nat.pow_succ, Nat.mul_comm (2 ^ w) 2, Nat.mod_mul]
    omega

theorem value_reverse_lt (xs : List Bool) : Bits.value xs.reverse < 2 ^ xs.length := by
  induction xs with
  | nil => simp [Bits.value]
  | cons x xs ih =>
    rw [List.reverse_cons, value_append_singleton, List.length_cons, Nat.pow_succ]
    cases x <;> simp <;> omega

theorem value_lt (xs : List Bool) : Bits.value xs < 2 ^ xs.length := by
  simpa using value_reverse_lt xs.reverse

end Bits

end Transponder

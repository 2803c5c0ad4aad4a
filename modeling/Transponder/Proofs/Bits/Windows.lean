import Transponder.Bits.Reader

/-!
# Windows into bits

What a range of a sequence of bits holds: the parts of a longer range, the bits that were written
last, zeros past the end, and the numbers and six-bit codes that were written there.
-/

namespace Transponder

-- Powers are those of `Nat` and `Int` themselves.
attribute [local instance (high)] instPowNat

namespace Bits

variable {a b : Bits} {p n m : Nat} {xs ys : List Bool}

theorem window_add : b.window p (n + m) = b.window p n ++ b.window (p + n) m := by
  unfold window
  rw [List.range_add, List.map_append, List.map_map]
  congr 1
  exact List.map_congr_left fun i _ => by rw [Function.comp, Nat.add_assoc]

/-- The bits that were written last, found again in a longer sequence. -/
theorem window_of_isPrefix (ha : a.toList = ys ++ xs) (h : a.toList <+: b.toList) :
    b.window ys.length xs.length = xs := by
  obtain ⟨zs, hz⟩ := h
  have hl : b.length = ys.length + xs.length + zs.length := by
    rw [← length_toList, ← hz, ha]
    simp [Nat.add_assoc]
  rw [window_eq _ (by omega), ← hz, ha]
  simp

theorem length_le_of_isPrefix (h : a.toList <+: b.toList) : a.length ≤ b.length := by
  simpa using h.length_le

theorem value_digits_of_lt (h : n < 2 ^ m) : value (digits n m) = n := by
  rw [value_digits, Nat.mod_eq_of_lt h]

/-- An integer in the range of a field, from the natural number that it is sent as. -/
theorem signed_emod {i : Int} (hn : 0 < n) (hl : -2 ^ (n - 1) ≤ i) (hu : i < 2 ^ (n - 1)) :
    signed n (i % 2 ^ n).toNat = i := by
  obtain ⟨n, rfl⟩ : ∃ k, n = k + 1 := ⟨n - 1, by omega⟩
  have hp : (2 : Int) ^ (n + 1) = 2 * 2 ^ n := by rw [Int.pow_succ, Int.mul_comm]
  have hp' : 2 ^ (n + 1) = 2 * 2 ^ n := by rw [Nat.pow_succ, Nat.mul_comm]
  have hc : ((2 ^ n : Nat) : Int) = (2 : Int) ^ n := by simp
  simp only [Nat.add_sub_cancel] at hl hu
  unfold signed
  rw [hp, hp']
  generalize (2 : Int) ^ n = q at *
  rcases Int.lt_or_le i 0 with hi | hi
  · rw [Int.emod_eq_add_self_emod, Int.emod_eq_of_lt (by omega) (by omega), if_neg (by omega)]
    omega
  · rw [Int.emod_eq_of_lt hi (by omega), if_pos (by omega)]
    omega

/-- The bits of codes of six bits each. -/
def codeBits (codes : List Nat) : List Bool :=
  codes.flatMap (digits · 6)

theorem length_codeBits (codes : List Nat) : (codeBits codes).length = 6 * codes.length := by
  induction codes with
  | nil => rfl
  | cons code codes ih =>
    rw [codeBits, List.flatMap_cons, List.length_append, length_digits, List.length_cons,
      ← codeBits, ih]
    omega

theorem toList_foldl_pushUint (codes : List Nat) :
    (codes.foldl (fun b code => b.pushUint code 6) b).toList = b.toList ++ codeBits codes := by
  induction codes generalizing b with
  | nil => simp [codeBits]
  | cons code codes ih =>
    rw [List.foldl_cons, ih, toList_pushUint, List.append_assoc]
    rfl

/-- Six-bit codes, read where they are. -/
theorem codes_of_window {codes : List Nat} (hc : ∀ code ∈ codes, code < 64)
    (h : b.window p (6 * codes.length) = codeBits codes) :
    (List.range codes.length).map (fun i => value (b.window (p + 6 * i) 6)) = codes := by
  induction codes generalizing p with
  | nil => rfl
  | cons code codes ih =>
    rw [List.length_cons, Nat.mul_succ, Nat.add_comm, window_add] at h
    obtain ⟨hcode, hcodes⟩ := List.append_inj h (by rw [length_window, length_digits])
    rw [List.length_cons, List.range_succ_eq_map, List.map_cons, List.map_map]
    congr 1
    · rw [Nat.mul_zero, Nat.add_zero, hcode]
      exact value_digits_of_lt (hc code List.mem_cons_self)
    · refine (List.map_congr_left fun i _ => ?_).trans
        (ih (fun c hm => hc c (List.mem_cons_of_mem _ hm)) hcodes)
      show value (b.window (p + 6 * (i + 1)) 6) = _
      rw [Nat.mul_succ, Nat.add_comm (6 * i), Nat.add_assoc]

theorem digits_value_reverse (xs : List Bool) :
    digits (value xs.reverse) xs.length = xs.reverse := by
  induction xs with
  | nil => rfl
  | cons x xs ih =>
    have hdiv : (2 * value xs.reverse + x.toNat) / 2 = value xs.reverse := by
      have hx := x.toNat_lt
      omega
    have hbit : (2 * value xs.reverse + x.toNat).testBit 0 = x := by
      rw [Nat.testBit_zero]
      cases x <;> simp
    rw [List.reverse_cons, value_append_singleton, List.length_cons, digits_div_two, hdiv, hbit, ih]

/-- The digits of the number that some bits stand for are these bits. -/
theorem digits_value (xs : List Bool) : digits (value xs) xs.length = xs := by
  simpa using digits_value_reverse xs.reverse

/-- Past the end of a sequence there are zeros. -/
theorem window_of_length_le (h : b.length ≤ p) : b.window p n = List.replicate n false := by
  rw [List.eq_replicate_iff]
  refine ⟨length_window _ _ _, fun x hx => ?_⟩
  obtain ⟨i, -, rfl⟩ := List.mem_map.mp hx
  exact b.bit_of_length_le (by omega)

/-- A range that is read by six bits at a time. -/
theorem codeBits_windows (count : Nat) :
    codeBits ((List.range count).map fun i => value (b.window (p + 6 * i) 6)) =
      b.window p (6 * count) := by
  induction count with
  | zero => rfl
  | succ count ih =>
    rw [List.range_succ, List.map_append, codeBits, List.flatMap_append, ← codeBits, ih,
      Nat.mul_succ, window_add]
    congr 1
    have h := digits_value (b.window (p + 6 * count) 6)
    rw [length_window] at h
    simpa using h

end Bits

end Transponder

import Mathlib.Algebra.Order.Field.Basic
import Mathlib.Algebra.Order.Ring.Abs
import Transponder.Proofs.Binary64.Rounding

/-!
# The values of binary64 numbers

`value` is a finite number as a rational number, and the order of the numbers is that of their values
(`le_iff_value`). Whole numbers below `2 ^ 53` are exact (`ofNat_eq`), and scaling up or down by one of
them is the exact operation, rounded (`mul_ofNat`, `div_ofNat`). A smaller number is smaller by the
spacing of the larger one (`Magnitude.units_add_le`).
-/

namespace Transponder

-- Powers are those of `Nat` and `Int` themselves.
attribute [local instance (high)] instPowNat

-- The number of units in one is never computed here.
attribute [local irreducible] Magnitude.one

/-- A smaller magnitude is smaller by the spacing of the larger one, which is not a power of two. -/
theorem Magnitude.units_add_le {m k : Magnitude} (h : m.units < k.units)
    (hk : k.mantissa ≠ 2 ^ (52 : Nat)) : m.units + 2 ^ k.exponent ≤ k.units := by
  rcases Nat.lt_or_ge m.exponent k.exponent with hlt | hge
  · have hmantissa : 2 ^ (52 : Nat) < k.mantissa := by
      have hnormal := k.normal
      omega
    calc m.units + 2 ^ k.exponent
        ≤ 2 ^ (53 : Nat) * 2 ^ m.exponent + 2 ^ k.exponent :=
          Nat.add_le_add_right (Nat.mul_le_mul_right _ (Nat.le_of_lt m.mantissa_lt)) _
      _ = 2 ^ (52 : Nat) * 2 ^ (m.exponent + 1) + 2 ^ k.exponent := by
          rw [Nat.pow_succ' (n := m.exponent), ← Nat.mul_assoc]
      _ ≤ 2 ^ (52 : Nat) * 2 ^ k.exponent + 2 ^ k.exponent :=
          Nat.add_le_add_right (mul_two_pow_le (Nat.le_refl _) hlt) _
      _ = (2 ^ (52 : Nat) + 1) * 2 ^ k.exponent := (Nat.succ_mul _ _).symm
      _ ≤ k.units := Nat.mul_le_mul_right _ hmantissa
  · have hsplit : m.units = m.mantissa * 2 ^ (m.exponent - k.exponent) * 2 ^ k.exponent := by
      rw [Nat.mul_assoc, ← Nat.pow_add, Nat.sub_add_cancel hge]
      rfl
    rw [hsplit] at h ⊢
    have hlt := Nat.lt_of_mul_lt_mul_right h
    rw [← Nat.succ_mul]
    exact Nat.mul_le_mul_right _ hlt

theorem Magnitude.eq_zero_of_units {m : Magnitude} (h : m.units = 0) : m = .zero := by
  obtain ⟨mantissa, exponent, hmantissa, hexponent, hnormal⟩ := m
  obtain rfl : mantissa = 0 :=
    (Nat.mul_eq_zero.mp h).resolve_right (Nat.ne_of_gt (Nat.two_pow_pos _))
  obtain rfl : exponent = 0 := hnormal.resolve_right (by decide)
  rfl

namespace Binary64

open Magnitude Rounding

variable {s t : Bool} {m k : Magnitude} {n d : Nat} {x y : Binary64}

/-- A finite number as a rational number; zero for the others. -/
def value : Binary64 → ℚ
  | finite s m => signedUnits s m / one
  | _ => 0

theorem pos_one_rat : (0 : ℚ) < one :=
  Nat.cast_pos.mpr pos_one

theorem value_of_positive (m : Magnitude) : (finite false m).value = m.units / one := by
  rw [value, signedUnits, Int.cast_natCast]

theorem value_of_negative (m : Magnitude) : (finite true m).value = -(finite false m).value := by
  rw [value_of_positive, value, signedUnits, Int.cast_neg, Int.cast_natCast, neg_div]

theorem value_zero : (finite false .zero).value = 0 := by
  have hunits : Magnitude.zero.units = 0 := Nat.zero_mul _
  rw [value_of_positive, hunits, Nat.cast_zero, zero_div]

theorem abs_value (s : Bool) (m : Magnitude) : |(finite s m).value| = m.units / one := by
  have hnonneg : (0 : ℚ) ≤ m.units / one := div_nonneg (Nat.cast_nonneg _) (Nat.cast_nonneg _)
  cases s with
  | false => rw [value_of_positive, abs_of_nonneg hnonneg]
  | true => rw [value_of_negative, abs_neg, value_of_positive, abs_of_nonneg hnonneg]

theorem le_iff_value (s t : Bool) (m k : Magnitude) :
    (finite s m).le (finite t k) = true ↔ (finite s m).value ≤ (finite t k).value := by
  rw [value, value, div_le_div_iff_of_pos_right pos_one_rat, Int.cast_le, le, decide_eq_true_iff]

theorem lt_iff_value (s t : Bool) (m k : Magnitude) :
    (finite s m).lt (finite t k) = true ↔ (finite s m).value < (finite t k).value := by
  have hle := le_iff_value s t m k
  have hge := le_iff_value t s k m
  rw [lt, Bool.and_eq_true, Bool.not_eq_true', ← Bool.not_eq_true, hle, hge, not_le,
    and_iff_right_of_imp le_of_lt]

theorem same_iff_value (s t : Bool) (m k : Magnitude) :
    (finite s m).same (finite t k) = true ↔ (finite s m).value = (finite t k).value := by
  rw [same, Bool.and_eq_true, le_iff_value, le_iff_value, le_antisymm_iff]

/-! ## Arithmetic -/

theorem ofUnits_eq (s : Bool) (h : nearest n d < limit) :
    ∃ m, ofUnits s n d = finite s m ∧ m.units = nearest n d := by
  obtain ⟨m, hm, hunits⟩ := exists_round? h
  refine ⟨m, ?_, hunits⟩
  unfold ofUnits
  rw [hm]

theorem units_of_ofUnits (h : ofUnits s n d = finite t m) : t = s ∧ m.units = nearest n d := by
  unfold ofUnits at h
  split at h
  case h_1 k hk =>
    cases h
    exact ⟨rfl, units_of_round? hk⟩
  case h_2 => cases h

/-- A whole number of 53 bits is exact. -/
theorem ofUnits_whole (s : Bool) (hn : n < 2 ^ (53 : Nat)) :
    ∃ m, ofUnits s (n * one) 1 = finite s m ∧ m.units = n * one := by
  have hnearest : nearest (n * one) 1 = n * one := by
    have hkept := nearest_whole hn Nat.one_pos
    rwa [Nat.mul_one] at hkept
  obtain ⟨m, hm, hunits⟩ := ofUnits_eq s (hnearest ▸ whole_lt_limit hn)
  exact ⟨m, hm, hunits.trans hnearest⟩

theorem ofNat_eq (hn : n < 2 ^ (53 : Nat)) :
    ∃ m, ofNat n = finite false m ∧ m.units = n * one :=
  ofUnits_whole false hn

theorem value_ofNat (hn : n < 2 ^ (53 : Nat)) : (ofNat n).value = n := by
  obtain ⟨m, hm, hunits⟩ := ofNat_eq hn
  rw [hm, value_of_positive, hunits, Nat.cast_mul, mul_div_cancel_right₀ _ (ne_of_gt pos_one_rat)]

theorem mul_ofNat_eq {w : Nat} (s : Bool) (m : Magnitude) (hw : w < 2 ^ (53 : Nat)) :
    finite s m * ofNat w = ofUnits s (m.units * w * one) one := by
  obtain ⟨k, hk, hunits⟩ := ofNat_eq hw
  rw [hk]
  show ofUnits (s ^^ false) (m.units * k.units) one = _
  rw [Bool.xor_false, hunits, Nat.mul_assoc]

theorem div_ofNat_eq {w : Nat} (s : Bool) (m : Magnitude) (hw : w < 2 ^ (53 : Nat)) (hpos : 0 < w) :
    finite s m / ofNat w = ofUnits s (m.units * one) (w * one) := by
  obtain ⟨k, hk, hunits⟩ := ofNat_eq hw
  have hnonzero : k.mantissa ≠ 0 := by
    intro hzero
    have hdivisor := Nat.mul_pos hpos pos_one
    rw [units, hzero, Nat.zero_mul] at hunits
    omega
  rw [hk]
  show (if k.mantissa = 0 then _ else ofUnits (s ^^ false) (m.units * one) k.units) = _
  rw [if_neg hnonzero, Bool.xor_false, hunits]

/-- Scaling by a whole number, with the spacing of the numbers around the product. -/
theorem mul_ofNat {w j : Nat} (s : Bool) (hw : w < 2 ^ (53 : Nat)) (hj : j < maxExponent)
    (hlt : m.units * w < 2 ^ (53 + j)) : ∃ p, finite s m * ofNat w = finite s p ∧
      p.units = nearest (m.units * w * one) one ∧
      2 * p.units ≤ 2 * (m.units * w) + 2 ^ j ∧ 2 * (m.units * w) ≤ 2 * p.units + 2 ^ j := by
  have hquotient : m.units * w * one / one = m.units * w := Nat.mul_div_cancel _ pos_one
  have hscale : scale (m.units * w * one / one) ≤ j := scale_le (by rwa [hquotient])
  obtain ⟨p, hp, hnearest⟩ := ofUnits_eq s (nearest_lt_limit hscale hj)
  obtain ⟨hup, hdown⟩ := nearest_bounds pos_one hscale
  rw [← hnearest] at hup hdown
  refine ⟨p, (mul_ofNat_eq s m hw).trans hp, hnearest, ?_, ?_⟩
  · exact Nat.le_of_mul_le_mul_right (by linarith) pos_one
  · exact Nat.le_of_mul_le_mul_right (by linarith) pos_one

/-- Dividing by a whole number, with the spacing of the numbers around the quotient. -/
theorem div_ofNat {w j : Nat} (s : Bool) (hw : w < 2 ^ (53 : Nat)) (hpos : 0 < w)
    (hj : j < maxExponent) (hlt : m.units < 2 ^ (53 + j) * w) :
    ∃ q, finite s m / ofNat w = finite s q ∧
      2 * (q.units * w) ≤ 2 * m.units + w * 2 ^ j ∧ 2 * m.units ≤ 2 * (q.units * w) + w * 2 ^ j := by
  have hquotient : m.units * one / (w * one) = m.units / w := Nat.mul_div_mul_right _ _ pos_one
  have hscale : scale (m.units * one / (w * one)) ≤ j :=
    scale_le (by rwa [hquotient, Nat.div_lt_iff_lt_mul hpos])
  obtain ⟨q, hq, hnearest⟩ := ofUnits_eq s (nearest_lt_limit hscale hj)
  obtain ⟨hup, hdown⟩ := nearest_bounds (Nat.mul_pos hpos pos_one) hscale
  rw [← hnearest] at hup hdown
  refine ⟨q, (div_ofNat_eq s m hw hpos).trans hq, ?_, ?_⟩
  · exact Nat.le_of_mul_le_mul_right (by linarith) pos_one
  · exact Nat.le_of_mul_le_mul_right (by linarith) pos_one

end Binary64

end Transponder

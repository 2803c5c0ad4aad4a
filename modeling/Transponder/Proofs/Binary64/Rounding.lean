import Mathlib.Algebra.Order.Field.Rat
import Mathlib.Tactic.Linarith
import Mathlib.Tactic.FieldSimp
import Mathlib.Tactic.Ring
import Transponder.Binary64.Arithmetic

/-!
# How binary64 numbers are rounded

`nearest` is the rounding to a mantissa of 53 bits without an end to the exponents, and
`Magnitude.round?` is that as long as it is below the first power of two past the largest magnitude
(`exists_round?`). It keeps the order (`nearest_mono`) and everything that fits into a mantissa
(`nearest_mul_two_pow`), so a magnitude is never crossed, and it is off by at most half the spacing of
the numbers around the result (`nearest_bounds`), which is a small part of a number that is not
tiny (`spacing_le`).
-/

namespace Transponder

-- Powers are those of `Nat` and `Int` themselves.
attribute [local instance (high)] instPowNat

namespace Rounding

variable {k n n' d : Nat}

theorem halfEven_mono (h : n ≤ n') : halfEven n d ≤ halfEven n' d := by
  rcases Nat.lt_or_eq_of_le (Nat.div_le_div_right (c := d) h) with hlt | heq
  · have hlow := halfEven_le n d
    have hhigh := le_halfEven n' d
    omega
  · have hn := Nat.div_add_mod n d
    have hn' := Nat.div_add_mod n' d
    have hmod : n % d ≤ n' % d := by
      rw [heq] at hn
      omega
    unfold halfEven
    rw [heq]
    split_ifs <;> omega

/-- A quotient less than a half away from a natural number goes to it. -/
theorem halfEven_eq (hlow : 2 * (k * d) < 2 * n + d) (hhigh : 2 * n < 2 * (k * d) + d) :
    halfEven n d = k := by
  have hd : 0 < d := by omega
  have hup := two_mul_halfEven_mul_le n d
  have hdown := two_mul_le_halfEven_mul n d hd
  refine Nat.le_antisymm (Nat.le_of_lt_succ ?_) (Nat.le_of_lt_succ ?_)
  · refine Nat.lt_of_mul_lt_mul_right (a := d) ?_
    rw [Nat.succ_mul]
    omega
  · refine Nat.lt_of_mul_lt_mul_right (a := d) ?_
    rw [Nat.succ_mul]
    omega

/-- Half way between two natural numbers the even one is taken. -/
theorem halfEven_half (h : 2 * n = (2 * k + 1) * d) (hd : 0 < d) : halfEven n d = k + k % 2 := by
  have hsum : (2 * k + 1) * d = 2 * (k * d) + d := by ring
  have hdiv : n / d = k := by
    refine Nat.div_eq_of_lt_le ?_ ?_
    · omega
    · rw [Nat.succ_mul]
      omega
  have hmod := Nat.div_add_mod n d
  rw [hdiv, Nat.mul_comm d k] at hmod
  unfold halfEven
  rw [hdiv, if_neg (by omega), if_neg (by omega)]

theorem le_halfUp_iff (hd : 0 < d) : k ≤ halfUp n d ↔ 2 * (k * d) ≤ 2 * n + d := by
  have hmul : k * (2 * d) = 2 * (k * d) := by ring
  rw [halfUp, Nat.le_div_iff_mul_le (by omega), hmul]

theorem halfUp_lt_iff (hd : 0 < d) : halfUp n d < k ↔ 2 * n + d < 2 * (k * d) := by
  rw [← Nat.not_le, le_halfUp_iff hd, Nat.not_le]

theorem halfUp_bounds (n : Nat) (hd : 0 < d) :
    2 * (halfUp n d * d) ≤ 2 * n + d ∧ 2 * n < 2 * (halfUp n d * d) + d := by
  have hlow := (le_halfUp_iff (n := n) hd).mp (Nat.le_refl (halfUp n d))
  have hhigh := (halfUp_lt_iff (n := n) hd).mp (Nat.lt_add_one (halfUp n d))
  have hsucc : (halfUp n d + 1) * d = halfUp n d * d + d := Nat.succ_mul _ d
  rw [hsucc] at hhigh
  exact ⟨hlow, by omega⟩

theorem halfUp_eq (hd : 0 < d) (hlow : 2 * (k * d) ≤ 2 * n + d) (hhigh : 2 * n < 2 * (k * d) + d) :
    halfUp n d = k := by
  refine Nat.le_antisymm (Nat.le_of_lt_succ ((halfUp_lt_iff hd).mpr ?_)) ((le_halfUp_iff hd).mpr hlow)
  have hsucc : (k + 1) * d = k * d + d := Nat.succ_mul k d
  rw [Nat.succ_eq_add_one, hsucc]
  omega

theorem halfUp_mul_right (n : Nat) (hd : 0 < d) : halfUp (n * d) d = n :=
  halfUp_eq hd (by omega) (by omega)

end Rounding

namespace Magnitude

open Rounding

variable {a d j n n' q : Nat} {m k : Magnitude}

/-- The number of units in one as a power of which the exponent is not computed with. -/
theorem exists_one : ∃ e : Nat, e = 1074 ∧ one = 2 ^ e := by
  refine ⟨1074, rfl, ?_⟩
  rw [one]

theorem pos_one : 0 < one := by
  obtain ⟨e, -, hone⟩ := exists_one
  rw [hone]
  exact Nat.two_pow_pos e

theorem mul_two_pow_le {b i j : Nat} (hab : a ≤ b) (hij : i ≤ j) : a * 2 ^ i ≤ b * 2 ^ j :=
  Nat.mul_le_mul hab (Nat.pow_le_pow_right (by decide) hij)

/-- The largest exponent. -/
def maxExponent : Nat :=
  2045

/-- The first power of two that is past the largest magnitude. -/
def limit : Nat :=
  2 ^ (53 : Nat) * 2 ^ maxExponent

theorem units_lt (m : Magnitude) : m.units < limit :=
  calc m.units < 2 ^ (53 : Nat) * 2 ^ m.exponent :=
        Nat.mul_lt_mul_of_pos_right m.mantissa_lt (Nat.two_pow_pos _)
    _ ≤ limit := mul_two_pow_le (Nat.le_refl _) m.exponent_le

/-! ## The spacing of the numbers -/

theorem scale_mono {q q' : Nat} (h : q ≤ q') : scale q ≤ scale q' := by
  have hlog : q.log2 ≤ q'.log2 := by
    rcases Nat.eq_zero_or_pos q with rfl | hq
    · exact Nat.zero_le _
    · exact (Nat.le_log2 (by omega)).mpr (Nat.le_trans (Nat.log2_self_le (by omega)) h)
  unfold scale
  omega

theorem scale_le (h : q < 2 ^ (53 + j)) : scale q ≤ j := by
  rcases Nat.eq_zero_or_pos q with rfl | hq
  · exact Nat.zero_le _
  · have hlog := (Nat.log2_lt (by omega)).mpr h
    unfold scale
    omega

/-- Numbers that are not tiny are close together, compared to how large they are. -/
theorem spacing_le (h : 2 ^ (52 : Nat) * d ≤ n) : 2 ^ (52 : Nat) * (d * 2 ^ scale (n / d)) ≤ n := by
  by_cases hscale : scale (n / d) = 0
  · rw [hscale, Nat.pow_zero, Nat.mul_one]
    exact h
  · have hmul := (Nat.le_div_iff_mul_le (Nat.two_pow_pos _)).mp (le_div_two_pow_scale hscale)
    have hdiv := Nat.div_mul_le_self n d
    calc 2 ^ (52 : Nat) * (d * 2 ^ scale (n / d))
        = 2 ^ (52 : Nat) * 2 ^ scale (n / d) * d := by ring
      _ ≤ n / d * d := Nat.mul_le_mul_right d hmul
      _ ≤ n := hdiv

/-! ## Rounding without an end -/

/-- The number of units nearest to `n / d` that has a mantissa of 53 bits, however large it is. -/
def nearest (n d : Nat) : Nat :=
  halfEven n (d * 2 ^ scale (n / d)) * 2 ^ scale (n / d)

theorem halfEven_le_two_pow (n d : Nat) :
    halfEven n (d * 2 ^ scale (n / d)) ≤ 2 ^ (53 : Nat) := by
  have hle := halfEven_le n (d * 2 ^ scale (n / d))
  have hlt := div_two_pow_scale_lt (n / d)
  rw [Nat.div_div_eq_div_mul] at hlt
  omega

theorem two_pow_le_halfEven (h : scale (n / d) ≠ 0) :
    2 ^ (52 : Nat) ≤ halfEven n (d * 2 ^ scale (n / d)) := by
  have hle := le_div_two_pow_scale h
  rw [Nat.div_div_eq_div_mul] at hle
  exact Nat.le_trans hle (le_halfEven _ _)

theorem units_of_round? (h : round? n d = some m) : m.units = nearest n d := by
  have hle := halfEven_le_two_pow n d
  unfold round? at h
  dsimp only at h
  split at h
  case isTrue =>
    split at h
    · rw [← Option.some.inj h]
      rfl
    · cases h
  case isFalse hcarry =>
    have heq : halfEven n (d * 2 ^ scale (n / d)) = 2 ^ (53 : Nat) :=
      Nat.le_antisymm hle (Nat.not_lt.mp hcarry)
    split at h
    · rw [← Option.some.inj h, nearest, heq]
      show 2 ^ (52 : Nat) * 2 ^ (scale (n / d) + 1) = _
      rw [Nat.pow_succ' (n := scale (n / d)), ← Nat.mul_assoc]
    · cases h

theorem nearest_lt_limit (h : scale (n / d) ≤ j) (hj : j < maxExponent) : nearest n d < limit :=
  Nat.lt_of_le_of_lt (mul_two_pow_le (halfEven_le_two_pow n d) h)
    (Nat.mul_lt_mul_of_pos_left (Nat.pow_lt_pow_right (by decide) hj) (Nat.two_pow_pos _))

/-- The result of a rounding is finite as long as it is below the next power of two. -/
theorem exists_round? (h : nearest n d < limit) :
    ∃ m, round? n d = some m ∧ m.units = nearest n d := by
  have hexists : ∃ m, round? n d = some m := by
    unfold round?
    dsimp only
    split
    case isTrue =>
      split
      · exact ⟨_, rfl⟩
      case isFalse hscale =>
        refine absurd h (Nat.not_lt.mpr ?_)
        have hlt : maxExponent < scale (n / d) := Nat.not_le.mp hscale
        calc limit = 2 ^ (52 : Nat) * 2 ^ (maxExponent + 1) := by
              rw [limit, Nat.pow_succ' (n := maxExponent), ← Nat.mul_assoc]
          _ ≤ nearest n d := mul_two_pow_le (two_pow_le_halfEven (Nat.ne_zero_of_lt hlt)) hlt
    case isFalse hcarry =>
      split
      · exact ⟨_, rfl⟩
      case isFalse hscale =>
        refine absurd h (Nat.not_lt.mpr ?_)
        exact mul_two_pow_le (Nat.not_lt.mp hcarry) (Nat.lt_succ_iff.mp (Nat.not_le.mp hscale))
  obtain ⟨m, hm⟩ := hexists
  exact ⟨m, hm, units_of_round? hm⟩

/-- Rounding keeps the order. -/
theorem nearest_mono (h : n ≤ n') : nearest n d ≤ nearest n' d := by
  have hscale := scale_mono (Nat.div_le_div_right (c := d) h)
  rcases Nat.lt_or_eq_of_le hscale with hlt | heq
  · -- The larger quotient is past the power of two that bounds the mantissas of the smaller one.
    have hlow := halfEven_le_two_pow n d
    have hhigh := two_pow_le_halfEven (n := n') (d := d) (by omega)
    calc nearest n d ≤ 2 ^ (53 : Nat) * 2 ^ scale (n / d) := Nat.mul_le_mul_right _ hlow
      _ = 2 ^ (52 : Nat) * 2 ^ (scale (n / d) + 1) := by
        rw [Nat.pow_succ' (n := scale (n / d)), ← Nat.mul_assoc]
      _ ≤ 2 ^ (52 : Nat) * 2 ^ scale (n' / d) := mul_two_pow_le (Nat.le_refl _) hlt
      _ ≤ nearest n' d := Nat.mul_le_mul_right _ hhigh
  · rw [nearest, nearest, heq]
    exact Nat.mul_le_mul_right _ (halfEven_mono h)

/-- What fits into a mantissa is kept. -/
theorem nearest_mul_two_pow (ha : a < 2 ^ (53 : Nat)) (hd : 0 < d) :
    nearest (a * 2 ^ j * d) d = a * 2 ^ j := by
  have hquotient : a * 2 ^ j * d / d = a * 2 ^ j := Nat.mul_div_cancel _ hd
  have hscale : scale (a * 2 ^ j) ≤ j := by
    refine scale_le ?_
    rw [Nat.pow_add]
    exact Nat.mul_lt_mul_of_pos_right ha (Nat.two_pow_pos _)
  have hsplit : 2 ^ j = 2 ^ (j - scale (a * 2 ^ j)) * 2 ^ scale (a * 2 ^ j) := by
    rw [← Nat.pow_add, Nat.sub_add_cancel hscale]
  have hwhole : a * 2 ^ j * d =
      a * 2 ^ (j - scale (a * 2 ^ j)) * (d * 2 ^ scale (a * 2 ^ j)) := by
    calc a * 2 ^ j * d
        = a * (2 ^ (j - scale (a * 2 ^ j)) * 2 ^ scale (a * 2 ^ j)) * d := by rw [← hsplit]
      _ = a * 2 ^ (j - scale (a * 2 ^ j)) * (d * 2 ^ scale (a * 2 ^ j)) := by ring
  rw [nearest, hquotient, hwhole, halfEven_mul_right _ _ (Nat.mul_pos hd (Nat.two_pow_pos _)),
    Nat.mul_assoc, ← hsplit]

theorem nearest_units (k : Magnitude) (hd : 0 < d) : nearest (k.units * d) d = k.units :=
  nearest_mul_two_pow k.mantissa_lt hd

/-- Whole numbers of 53 bits are kept. -/
theorem nearest_whole (ha : a < 2 ^ (53 : Nat)) (hd : 0 < d) :
    nearest (a * one * d) d = a * one := by
  obtain ⟨e, -, hone⟩ := exists_one
  rw [hone]
  exact nearest_mul_two_pow ha hd

theorem whole_lt_limit (ha : a < 2 ^ (53 : Nat)) : a * one < limit := by
  obtain ⟨e, he, hone⟩ := exists_one
  have hle : e ≤ maxExponent := by
    unfold maxExponent
    omega
  rw [hone]
  exact Nat.lt_of_lt_of_le (Nat.mul_lt_mul_of_pos_right ha (Nat.two_pow_pos _))
    (mul_two_pow_le (Nat.le_refl _) hle)

/-- Halves of 53 bits are kept. -/
theorem nearest_half {h : Nat} (ha : a < 2 ^ (53 : Nat)) (hd : 0 < d) (hh : 2 * h = a * one) :
    nearest (h * d) d = h := by
  obtain ⟨e, he, hone⟩ := exists_one
  obtain ⟨j, rfl⟩ : ∃ j, e = j + 1 := ⟨1073, he⟩
  obtain rfl : h = a * 2 ^ j := by
    refine Nat.eq_of_mul_eq_mul_left Nat.two_pos ?_
    rw [hh, hone]
    ring
  exact nearest_mul_two_pow ha hd

/-- The result is at most half the spacing away. -/
theorem nearest_bounds (hd : 0 < d) (h : scale (n / d) ≤ j) :
    2 * (nearest n d * d) ≤ 2 * n + d * 2 ^ j ∧ 2 * n ≤ 2 * (nearest n d * d) + d * 2 ^ j := by
  have hspacing : d * 2 ^ scale (n / d) ≤ d * 2 ^ j := mul_two_pow_le (Nat.le_refl d) h
  have hmul : nearest n d * d =
      halfEven n (d * 2 ^ scale (n / d)) * (d * 2 ^ scale (n / d)) := by
    unfold nearest
    ring
  have hup := two_mul_halfEven_mul_le n (d * 2 ^ scale (n / d))
  have hdown := two_mul_le_halfEven_mul n _ (Nat.mul_pos hd (Nat.two_pow_pos (scale (n / d))))
  rw [hmul]
  exact ⟨by omega, by omega⟩

/-- A number that is not tiny is changed by a small part of it. -/
theorem nearest_relative (hd : 0 < d) (h : 2 ^ (52 : Nat) * d ≤ n) :
    2 ^ (53 : Nat) * (nearest n d * d) ≤ 2 ^ (53 : Nat) * n + n ∧
      2 ^ (53 : Nat) * n ≤ 2 ^ (53 : Nat) * (nearest n d * d) + n := by
  obtain ⟨hup, hdown⟩ := nearest_bounds (n := n) hd (Nat.le_refl _)
  have hspacing := spacing_le h
  exact ⟨by omega, by omega⟩

/-- The spacing of the numbers below a power of two. -/
theorem exists_spacing {i : Nat} (hi : i < 1024) :
    ∃ j < maxExponent, 2 ^ (53 + j) = 2 ^ i * one := by
  obtain ⟨e, he, hone⟩ := exists_one
  refine ⟨e + i - 53, ?_, ?_⟩
  · unfold maxExponent
    omega
  · rw [hone, ← Nat.pow_add, Nat.add_comm i e]
    exact congrArg (2 ^ ·) (by omega)

/-! ## Halves -/

theorem exists_half (a : Nat) : ∃ h, 2 * h = a * one := by
  obtain ⟨e, he, hone⟩ := exists_one
  obtain ⟨j, rfl⟩ : ∃ j, e = j + 1 := ⟨1073, he⟩
  refine ⟨a * 2 ^ j, ?_⟩
  rw [hone]
  ring

/-- Rounding does not go below a half that was reached. -/
theorem half_le_nearest (ha : a < 2 ^ (53 : Nat)) (h : a * one ≤ 2 * q) :
    a * one ≤ 2 * nearest (q * one) one := by
  obtain ⟨half, hhalf⟩ := exists_half a
  have hmono : nearest (half * one) one ≤ nearest (q * one) one :=
    nearest_mono (Nat.mul_le_mul_right _ (by omega))
  rw [nearest_half ha pos_one hhalf] at hmono
  omega

/-- Rounding does not go above a half that was not passed. -/
theorem nearest_le_half (ha : a < 2 ^ (53 : Nat)) (h : 2 * q ≤ a * one) :
    2 * nearest (q * one) one ≤ a * one := by
  obtain ⟨half, hhalf⟩ := exists_half a
  have hmono : nearest (q * one) one ≤ nearest (half * one) one :=
    nearest_mono (Nat.mul_le_mul_right _ (by omega))
  rw [nearest_half ha pos_one hhalf] at hmono
  omega

end Magnitude

end Transponder

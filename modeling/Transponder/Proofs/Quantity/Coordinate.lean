import Transponder.Bits.Writer
import Transponder.Proofs.Binary64.Values
import Transponder.Proofs.Bits.Edits

/-!
# Coordinates are sent as they were read

The degrees that are read for a code are sent as the same code, if they can be sent: the codes up to
the limit of the axis and the code of a coordinate that is not available can, and no others
(`admits_coordinate_iff`). Any other coordinate that can be sent goes to the code that is half a step
away at most, up to the rounding of the numbers, and every such code fits into its field
(`exists_coordinateCode`).

A coordinate is rounded twice, once as a quotient when it is read and once as a product when it is
sent. Quotients are below 256 degrees and products below `2 ^ 27` steps, and numbers of that size are so
close together that both errors are a small part of half a step (`exists_isQuotient`,
`scaled_coordinate`). That is not enough at the limit itself, which must not be passed: there it counts
that rounding keeps whole degrees and the order of the numbers (`IsQuotient.units_le_iff`).
-/

namespace Transponder

-- Powers are those of `Nat` and `Int` themselves.
attribute [local instance (high)] instPowNat

-- The number of units in one is never computed here.
attribute [local irreducible] Magnitude.one

namespace Quantity

open Magnitude Rounding Binary64

variable {axis : Axis} {width : Nat} {m : Magnitude} {s : Bool} {r : Int} {v : Binary64}

/-- The widths of the fields that a coordinate is sent in. -/
def Axis.widths : Axis → List Nat
  | latitude => [27, 17]
  | longitude => [28, 18]

/-- The numbers that can be sent as a coordinate. -/
def Axis.Admits (axis : Axis) (v : Binary64) : Prop :=
  v.isFinite = true ∧ (|v.value| ≤ axis.limit ∨ v.value = axis.limit + 1)

/-- The codes of the coordinates that can be sent. -/
def Axis.AdmitsCode (axis : Axis) (width : Nat) (r : Int) : Prop :=
  |r| ≤ axis.limit * coordinateScale width ∨ r = (axis.limit + 1) * coordinateScale width

/-- A field of some width for the coordinates of an axis: its codes are below 256 degrees, and there is
room for the one that is not available. -/
structure IsCoordinateField (axis : Axis) (width : Nat) : Prop where
  width_pos : 0 < width
  width_le : width ≤ 64
  scale_pos : 0 < coordinateScale width
  scale_le : coordinateScale width ≤ fineScale
  codes_lt : 2 ^ (width - 1) < 256 * coordinateScale width
  notAvailable_lt : (axis.limit + 1) * coordinateScale width < 2 ^ (width - 1)
  notAvailable_le : axis.limit + 1 ≤ 181

theorem isCoordinateField (h : width ∈ axis.widths) : IsCoordinateField axis width := by
  cases axis with
  | latitude =>
    rcases List.mem_pair.mp h with rfl | rfl <;> constructor <;> decide
  | longitude =>
    rcases List.mem_pair.mp h with rfl | rfl <;> constructor <;> decide

/-! ## The numbers that can be sent -/

theorem Axis.admits_finite_iff : axis.Admits (finite s m) ↔
    m.units ≤ axis.limit * one ∨ s = false ∧ m.units = (axis.limit + 1) * one := by
  have hpos := pos_one_rat
  have hlimit : |(finite s m).value| ≤ axis.limit ↔ m.units ≤ axis.limit * one := by
    rw [abs_value, div_le_iff₀ hpos]
    exact_mod_cast Iff.rfl
  have hnone : (finite s m).value = axis.limit + 1 ↔ s = false ∧ m.units = (axis.limit + 1) * one := by
    cases s with
    | false =>
      rw [value_of_positive, div_eq_iff (ne_of_gt hpos)]
      simp only [true_and]
      exact_mod_cast Iff.rfl
    | true =>
      have hnonneg : (0 : ℚ) ≤ m.units / one := div_nonneg (Nat.cast_nonneg _) (Nat.cast_nonneg _)
      have hlow : (0 : ℚ) ≤ axis.limit := Nat.cast_nonneg _
      rw [value_of_negative, value_of_positive]
      exact ⟨fun h => by linarith, fun h => nomatch h.1⟩
  rw [Admits, hlimit, hnone]
  exact and_iff_right rfl

/-- What is checked of a coordinate before it is sent. -/
theorem check_iff_admits (h : IsCoordinateField axis width) (v : Binary64) :
    (v.isFinite && (v.abs.le (.ofNat axis.limit) || v.same axis.notAvailable)) = true ↔
      axis.Admits v := by
  have hle := h.notAvailable_le
  cases v with
  | finite s m =>
    have hlt : axis.limit + 1 < 2 ^ (53 : Nat) := by omega
    obtain ⟨k, hk, -⟩ := ofNat_eq (n := axis.limit) (by omega)
    obtain ⟨l, hl, -⟩ := ofNat_eq hlt
    have hlimit : (finite false k).value = axis.limit := hk ▸ value_ofNat (by omega)
    have hnone : (finite false l).value = axis.limit + 1 := by
      rw [← hl, value_ofNat hlt, Nat.cast_succ]
    have habs : (finite s m).abs.value = |(finite s m).value| := by
      rw [abs_value, ← value_of_positive]
      rfl
    rw [Axis.Admits, Axis.notAvailable, hk, hl, Bool.and_eq_true, Bool.or_eq_true, same_iff_value,
      hnone, ← habs, ← hlimit]
    exact and_congr_right fun _ => or_congr_left (le_iff_value false false m k)
  | infinite t => exact ⟨nofun, fun hadmits => nomatch hadmits.1⟩
  | nan => exact ⟨nofun, fun hadmits => nomatch hadmits.1⟩

theorem coordinateCode_of_admits (h : IsCoordinateField axis width) (hv : axis.Admits v) :
    coordinateCode axis width v = .ok (v * .ofNat (coordinateScale width)).roundInt :=
  if_pos ((check_iff_admits h v).mpr hv)

theorem coordinateCode_of_not_admits (h : IsCoordinateField axis width) (hv : ¬ axis.Admits v) :
    coordinateCode axis width v = .error (.outsideLimit v axis.limit) :=
  if_neg (mt (check_iff_admits h v).mp hv)

/-! ## What is read -/

/-- `q` is read as the degrees of a code without its sign: it is the quotient, rounded, and in steps it
is the code up to a small part of a step. -/
structure IsQuotient (width code : Nat) (q : Magnitude) : Prop where
  units_eq : q.units = nearest (code * one * one) (coordinateScale width * one)
  up : 2 ^ (26 : Nat) * (q.units * coordinateScale width) ≤ 2 ^ (26 : Nat) * (code * one) + one
  down : 2 ^ (26 : Nat) * (code * one) ≤ 2 ^ (26 : Nat) * (q.units * coordinateScale width) + one

theorem exists_isQuotient (h : IsCoordinateField axis width) (hr : r.natAbs ≤ 2 ^ (width - 1)) :
    ∃ q, coordinate width r = finite (decide (r < 0)) q ∧ IsQuotient width r.natAbs q := by
  have hpos := h.scale_pos
  have hscale := h.scale_le
  have hcodes := h.codes_lt
  unfold fineScale at hscale
  obtain ⟨k, hk, hunits⟩ := ofUnits_whole (decide (r < 0)) (n := r.natAbs) (by omega)
  -- Quotients are below 256, and the numbers there are a small part of a step apart.
  obtain ⟨j, hj, hspacing⟩ := exists_spacing (i := 8) (by decide)
  have hlt : k.units < 2 ^ (53 + j) * coordinateScale width := by
    rw [hunits, hspacing, Nat.mul_right_comm]
    exact Nat.mul_lt_mul_of_pos_right (by omega) pos_one
  have hsmall : coordinateScale width * 2 ^ j ≤ 2 ^ (20 : Nat) * 2 ^ j :=
    Nat.mul_le_mul_right _ (by omega)
  obtain ⟨q, hq, hup, hdown⟩ := div_ofNat (decide (r < 0)) (by omega) hpos hj hlt
  have hrounded := div_ofNat_eq (decide (r < 0)) k (w := coordinateScale width) (by omega) hpos
  rw [hq] at hrounded
  rw [hunits] at hup hdown
  rw [Nat.pow_add] at hspacing
  refine ⟨q, ?_, ?_, by omega, by omega⟩
  · rw [coordinate, Binary64.ofInt, hk, hq]
  · rw [(units_of_ofUnits hrounded.symm).2, hunits]

/-- Whole numbers are in order if the first one is less than one past the second. -/
theorem le_of_units_lt {a b : Nat} (h : a * one < b * one + one) : a ≤ b := by
  rw [← Nat.succ_mul] at h
  exact Nat.le_of_lt_succ (Nat.lt_of_mul_lt_mul_right h)

/-- Whole degrees are read as they are. -/
theorem nearest_degrees {c : Nat} (h : IsCoordinateField axis width) (hc : c < 2 ^ (53 : Nat)) :
    nearest (c * coordinateScale width * one * one) (coordinateScale width * one) = c * one := by
  have hwhole : c * coordinateScale width * one * one = c * one * (coordinateScale width * one) := by
    ring
  rw [hwhole, nearest_whole hc (Nat.mul_pos h.scale_pos pos_one)]

namespace IsQuotient

variable {code c : Nat} {q : Magnitude}

/-- Rounding does not pass a whole number of degrees. -/
theorem units_le_iff (hq : IsQuotient width code q) (h : IsCoordinateField axis width)
    (hc : c < 2 ^ (53 : Nat)) : q.units ≤ c * one ↔ code ≤ c * coordinateScale width := by
  constructor
  · intro hle
    have hsteps := Nat.mul_le_mul_right (coordinateScale width) hle
    have hdown := hq.down
    have hpos := pos_one
    rw [Nat.mul_right_comm] at hsteps
    exact le_of_units_lt (by omega)
  · intro hle
    rw [hq.units_eq, ← nearest_degrees h hc]
    exact nearest_mono (Nat.mul_le_mul_right _ (Nat.mul_le_mul_right _ hle))

theorem le_units_iff (hq : IsQuotient width code q) (h : IsCoordinateField axis width)
    (hc : c < 2 ^ (53 : Nat)) : c * one ≤ q.units ↔ c * coordinateScale width ≤ code := by
  constructor
  · intro hle
    have hsteps := Nat.mul_le_mul_right (coordinateScale width) hle
    have hup := hq.up
    have hpos := pos_one
    rw [Nat.mul_right_comm] at hsteps
    exact le_of_units_lt (by omega)
  · intro hle
    rw [hq.units_eq, ← nearest_degrees h hc]
    exact nearest_mono (Nat.mul_le_mul_right _ (Nat.mul_le_mul_right _ hle))

end IsQuotient

theorem admitsCode_iff : axis.AdmitsCode width r ↔ r.natAbs ≤ axis.limit * coordinateScale width ∨
    decide (r < 0) = false ∧ r.natAbs = (axis.limit + 1) * coordinateScale width := by
  have hlimit : |r| ≤ axis.limit * coordinateScale width ↔
      r.natAbs ≤ axis.limit * coordinateScale width := by
    rw [Int.abs_eq_natAbs]
    exact_mod_cast Iff.rfl
  have hnone : r = (axis.limit + 1) * coordinateScale width ↔
      decide (r < 0) = false ∧ r.natAbs = (axis.limit + 1) * coordinateScale width := by
    have hcast : ((axis.limit : Int) + 1) * coordinateScale width =
        ((axis.limit + 1) * coordinateScale width : Nat) := by
      push_cast
      rfl
    rw [hcast, decide_eq_false_iff_not]
    omega
  rw [Axis.AdmitsCode, hlimit, hnone]

/-- The codes of the coordinates that can be sent are those that are read as such. -/
theorem admits_coordinate_iff (h : IsCoordinateField axis width) (hr : r.natAbs ≤ 2 ^ (width - 1)) :
    axis.Admits (coordinate width r) ↔ axis.AdmitsCode width r := by
  have hlimit := h.notAvailable_le
  obtain ⟨q, hread, hq⟩ := exists_isQuotient h hr
  have heq : q.units = (axis.limit + 1) * one ↔
      r.natAbs = (axis.limit + 1) * coordinateScale width := by
    rw [Nat.le_antisymm_iff, Nat.le_antisymm_iff, hq.units_le_iff h (by omega),
      hq.le_units_iff h (by omega)]
  rw [hread, Axis.admits_finite_iff, admitsCode_iff, hq.units_le_iff h (by omega), heq]

/-! ## What is sent -/

/-- A coordinate in steps is rounded by a small part of a step. -/
theorem scaled_coordinate (s : Bool) (h : IsCoordinateField axis width)
    (hm : m.units ≤ (axis.limit + 1) * one) : ∃ p : Magnitude,
      finite s m * .ofNat (coordinateScale width) = finite s p ∧
      2 ^ (27 : Nat) * p.units ≤ 2 ^ (27 : Nat) * (m.units * coordinateScale width) + one ∧
      2 ^ (27 : Nat) * (m.units * coordinateScale width) ≤ 2 ^ (27 : Nat) * p.units + one := by
  have hscale := h.scale_le
  have hlimit := h.notAvailable_le
  unfold fineScale at hscale
  obtain ⟨j, hj, hspacing⟩ := exists_spacing (i := 27) (by decide)
  have hlt : m.units * coordinateScale width < 2 ^ (53 + j) := by
    calc m.units * coordinateScale width
        ≤ (axis.limit + 1) * one * coordinateScale width := Nat.mul_le_mul_right _ hm
      _ = (axis.limit + 1) * coordinateScale width * one := Nat.mul_right_comm _ _ _
      _ ≤ 181 * 600000 * one := Nat.mul_le_mul_right _ (Nat.mul_le_mul hlimit hscale)
      _ < 2 ^ (27 : Nat) * one := Nat.mul_lt_mul_of_pos_right (by decide) pos_one
      _ = 2 ^ (53 + j) := hspacing.symm
  obtain ⟨p, hp, -, hup, hdown⟩ := mul_ofNat s (by omega) hj hlt
  rw [Nat.pow_add] at hspacing
  exact ⟨p, hp, by omega, by omega⟩

theorem units_le_of_admits (hv : axis.Admits (finite s m)) : m.units ≤ (axis.limit + 1) * one := by
  have hsucc : (axis.limit + 1) * one = axis.limit * one + one := Nat.succ_mul _ _
  rcases Axis.admits_finite_iff.mp hv with hle | ⟨-, heq⟩ <;> omega

/-- The degrees that were read for a code are sent as that code. -/
theorem coordinateCode_coordinate (h : IsCoordinateField axis width)
    (hr : r.natAbs ≤ 2 ^ (width - 1)) (hadmits : axis.AdmitsCode width r) :
    coordinateCode axis width (coordinate width r) = .ok r := by
  have hv := (admits_coordinate_iff h hr).mpr hadmits
  rw [coordinateCode_of_admits h hv]
  obtain ⟨q, hread, hq⟩ := exists_isQuotient h hr
  rw [hread] at hv ⊢
  obtain ⟨p, hp, hup, hdown⟩ := scaled_coordinate (decide (r < 0)) h (units_le_of_admits hv)
  have hcode : halfUp p.units one = r.natAbs := by
    have hnear := hq.up
    have hnear' := hq.down
    have hpos := pos_one
    exact halfUp_eq hpos (by omega) (by omega)
  rw [hp, roundInt, hcode]
  refine congrArg Except.ok ?_
  by_cases hsign : r < 0
  · rw [decide_eq_true hsign, if_pos rfl]
    omega
  · rw [decide_eq_false hsign, if_neg Bool.false_ne_true]
    omega

/-- The distance of a number and a value does not change with the sign of both. -/
theorem abs_sub_value (s : Bool) (n : Nat) (m : Magnitude) (w : ℚ) :
    |((if s then -(n : Int) else n : Int) : ℚ) - (finite s m).value * w| = |n - m.units / one * w| := by
  cases s with
  | false =>
    rw [value_of_positive]
    rfl
  | true =>
    rw [value_of_negative, value_of_positive, if_pos rfl, Int.cast_neg, Int.cast_natCast, neg_mul,
      sub_neg_eq_add, neg_add_eq_sub, abs_sub_comm]

theorem abs_sub_le_of_steps {n : Nat} {w : Nat}
    (hup : 2 ^ (27 : Nat) * (n * one) ≤ 2 ^ (27 : Nat) * (m.units * w) + (2 ^ (26 : Nat) + 1) * one)
    (hdown : 2 ^ (27 : Nat) * (m.units * w) ≤ 2 ^ (27 : Nat) * (n * one) + (2 ^ (26 : Nat) + 1) * one) :
    |(n : ℚ) - m.units / one * w| ≤ 1 / 2 + 1 / 2 ^ 27 := by
  have hpos : (0 : ℚ) < one := pos_one_rat
  have hup' : (2 : ℚ) ^ 27 * (n * one) ≤ 2 ^ 27 * (m.units * w) + (2 ^ 26 + 1) * one := by
    exact_mod_cast hup
  have hdown' : (2 : ℚ) ^ 27 * (m.units * w) ≤ 2 ^ 27 * (n * one) + (2 ^ 26 + 1) * one := by
    exact_mod_cast hdown
  have hsteps : (n : ℚ) - m.units / one * w = (n * one - m.units * w) / one := by
    field_simp
  rw [hsteps, abs_div, abs_of_pos hpos, div_le_iff₀ hpos, abs_le]
  constructor <;> linarith

/-- Every coordinate that can be sent has a code in its field, half a step away at most. -/
theorem exists_coordinateCode (h : IsCoordinateField axis width) (hv : axis.Admits v) :
    ∃ code : Int, coordinateCode axis width v = .ok code ∧
      -2 ^ (width - 1) ≤ code ∧ code < 2 ^ (width - 1) ∧
      |(code : ℚ) - v.value * coordinateScale width| ≤ 1 / 2 + 1 / 2 ^ 27 := by
  rw [coordinateCode_of_admits h hv]
  cases v with
  | infinite t => exact nomatch hv.1
  | nan => exact nomatch hv.1
  | finite s m =>
    have hm := units_le_of_admits hv
    obtain ⟨p, hp, hup, hdown⟩ := scaled_coordinate s h hm
    obtain ⟨hlow, hhigh⟩ := halfUp_bounds p.units pos_one
    have hfits : halfUp p.units one < 2 ^ (width - 1) := by
      have hsteps := Nat.mul_le_mul_right (coordinateScale width) hm
      have hpos := pos_one
      rw [Nat.mul_right_comm] at hsteps
      exact Nat.lt_of_le_of_lt (le_of_units_lt (by omega)) h.notAvailable_lt
    have hcast : ((2 ^ (width - 1) : Nat) : Int) = 2 ^ (width - 1) := by simp
    rw [hp]
    refine ⟨_, rfl, ?_, ?_, ?_⟩
    · rw [roundInt]
      split <;> omega
    · rw [roundInt]
      split <;> omega
    · rw [roundInt, abs_sub_value]
      exact abs_sub_le_of_steps (by omega) (by omega)

theorem coordinate_written (h : IsCoordinateField axis width) {code : Int}
    (hcode : coordinateCode axis width v = .ok code) (hlow : -2 ^ (width - 1) ≤ code)
    (hhigh : code < 2 ^ (width - 1)) (w : Writer) (field : String) :
    ∃ w', w.coordinate axis field v width = (w', .ok ()) ∧
      w'.bits = w.bits.pushUint (code % 2 ^ width).toNat width ∧
      w'.bits.intAt w.bits.length width = .ok code := by
  have hpos := h.width_pos
  have hle := h.width_le
  refine ⟨⟨w.bits.pushUint (code % 2 ^ width).toNat width⟩, ?_, rfl,
    w.bits.intAt_pushUint hpos hlow hhigh⟩
  rw [Writer.coordinate, hcode]
  show w.int field code width = _
  rw [Writer.int, if_neg (by omega), if_neg (by omega)]

theorem coordinate_refused (h : IsCoordinateField axis width) (hv : ¬ axis.Admits v) (w : Writer)
    (field : String) : w.coordinate axis field v width =
      (w, .error (.unencodable field (.outsideLimit v axis.limit))) := by
  rw [Writer.coordinate, coordinateCode_of_not_admits h hv]
  rfl

/-- The degrees that are read for a code can be sent if and only if it is a code up to the limit or that
of a coordinate that is not available, and then the same code is sent. A number can be sent if and only
if it is within the limit or the one for a coordinate that is not available; what is sent then is half a
step away at most, up to rounding, and always has room in its field. -/
theorem coordinates_kept (h : width ∈ axis.widths) :
    (∀ r : Int, -2 ^ (width - 1) ≤ r → r < 2 ^ (width - 1) →
      (∀ (b : Bits) (offset : Nat), b.intAt offset width = .ok r →
        b.coordinateAt offset width = .ok (coordinate width r)) ∧
      ∀ (w : Writer) (field : String),
        ((∃ w', w.coordinate axis field (coordinate width r) width = (w', .ok ())) ↔
          axis.AdmitsCode width r) ∧
        ∀ w', w.coordinate axis field (coordinate width r) width = (w', .ok ()) →
          w'.bits = w.bits.pushUint (r % 2 ^ width).toNat width ∧
          w'.bits.intAt w.bits.length width = .ok r) ∧
    ∀ (v : Binary64) (w : Writer) (field : String),
      (¬ axis.Admits v → w.coordinate axis field v width =
        (w, .error (.unencodable field (.outsideLimit v axis.limit)))) ∧
      (axis.Admits v → ∃ (code : Int) (w' : Writer), w.coordinate axis field v width = (w', .ok ()) ∧
        w'.bits.intAt w.bits.length width = .ok code ∧
        -2 ^ (width - 1) ≤ code ∧ code < 2 ^ (width - 1) ∧
        |(code : ℚ) - v.value * coordinateScale width| ≤ 1 / 2 + 1 / 2 ^ 27) := by
  have hfield := isCoordinateField h
  refine ⟨fun r hlow hhigh => ⟨fun b offset hread => ?_, fun w field => ?_⟩, fun v w field =>
    ⟨fun hv => coordinate_refused hfield hv w field, fun hv => ?_⟩⟩
  · rw [Bits.coordinateAt, hread]
    rfl
  · have hr : r.natAbs ≤ 2 ^ (width - 1) := by
      have hcast : ((2 ^ (width - 1) : Nat) : Int) = 2 ^ (width - 1) := by simp
      omega
    have hiff := admits_coordinate_iff hfield hr
    by_cases hadmits : axis.AdmitsCode width r
    · obtain ⟨w', hw, hbits, hread⟩ := coordinate_written hfield
        (coordinateCode_coordinate hfield hr hadmits) hlow hhigh w field
      refine ⟨iff_of_true ⟨w', hw⟩ hadmits, fun w'' hw'' => ?_⟩
      obtain rfl : w' = w'' := congrArg Prod.fst (hw.symm.trans hw'')
      exact ⟨hbits, hread⟩
    · have hw := coordinate_refused hfield (mt hiff.mp hadmits) w field
      rw [hw]
      refine ⟨iff_of_false (fun ⟨_, hok⟩ => ?_) hadmits, fun _ hok => ?_⟩
      · cases hok
      · cases hok
  · obtain ⟨code, hcode, hlow, hhigh, hnear⟩ := exists_coordinateCode hfield hv
    obtain ⟨w', hw, -, hread⟩ := coordinate_written hfield hcode hlow hhigh w field
    exact ⟨code, w', hw, hread, hlow, hhigh, hnear⟩

/-- The code of a longitude that is not available, the first code past the limit, and a number between
two codes. -/
theorem coordinates_kept_pastTheLimit :
    (∃ w', Writer.empty.coordinate .longitude "longitude" (coordinate 28 108600000) 28 =
        (w', .ok ()) ∧
      w'.bits.intAt 0 28 = .ok 108600000) ∧
    (¬ ∃ w', Writer.empty.coordinate .longitude "longitude" (coordinate 28 108000001) 28 =
        (w', .ok ())) ∧
    ∃ (code : Int) (w' : Writer),
      Writer.empty.coordinate .longitude "longitude" (-.ofRatio 1 7) 28 = (w', .ok ()) ∧
      w'.bits.intAt 0 28 = .ok code ∧
      |(code : ℚ) - (-Binary64.ofRatio 1 7).value * coordinateScale 28| ≤ 1 / 2 + 1 / 2 ^ 27 := by
  have hwidth : 28 ∈ Axis.longitude.widths := by decide
  obtain ⟨hcodes, hnumbers⟩ := coordinates_kept hwidth
  obtain ⟨-, hnone⟩ := hcodes 108600000 (by decide) (by decide)
  obtain ⟨-, hpast⟩ := hcodes 108000001 (by decide) (by decide)
  obtain ⟨hsent, hsame⟩ := hnone .empty "longitude"
  obtain ⟨w', hw⟩ := hsent.mpr (.inr (by decide))
  have hadmits : Axis.longitude.Admits (-.ofRatio 1 7) :=
    (check_iff_admits (isCoordinateField hwidth) _).mp (by decide +kernel)
  obtain ⟨code, w'', hw'', hread, -, -, hnear⟩ :=
    (hnumbers (-.ofRatio 1 7) .empty "longitude").2 hadmits
  refine ⟨⟨w', hw, (hsame w' hw).2⟩, ?_, code, w'', hw'', hread, hnear⟩
  rw [(hpast .empty "longitude").1, Axis.AdmitsCode]
  decide

end Quantity

end Transponder

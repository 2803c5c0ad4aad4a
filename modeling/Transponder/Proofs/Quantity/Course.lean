import Transponder.Bits.Writer
import Transponder.Proofs.Binary64.Values
import Transponder.Proofs.Bits.Edits

/-!
# How a course is sent

Every course from zero up to a full turn is sent, and what is read for its code is a twentieth of a
degree away at most, up to the rounding of the numbers (`course_sent`). Courses go to the nearest
tenth, so the last of them go to the full turn, and its code is the one of a course that is not
available: that is what is sent from the number nearest to 359.95 on (`notAvailable_iff`). The receiver
reads zero then, which is near such a course on the circle.
-/

namespace Transponder

-- Powers are those of `Nat` and `Int` themselves.
attribute [local instance (high)] instPowNat

-- The number of units in one is never computed here.
attribute [local irreducible] Magnitude.one

namespace Quantity

open Magnitude Rounding Binary64

variable {f : Nat} {m : Magnitude} {v : Binary64}

/-- The distance of two directions on the circle, in degrees. -/
def arc (x y : ℚ) : ℚ :=
  min |x - y| (360 - |x - y|)

/-- The first course for which the nearest tenth is the full turn. -/
def firstFullTurn : Magnitude :=
  ⟨6332307366687539, 1030, by decide, by decide, .inr (by decide)⟩

theorem firstFullTurn_eq : Binary64.ofRatio 35995 100 = finite false firstFullTurn := by
  decide +kernel

/-! ## Tenths of a degree -/

/-- The exponent of the spacing of the numbers from 256 to 512. -/
structure IsSpacing (f : Nat) : Prop where
  exponent_lt : f + 3 < maxExponent
  one_eq : one = 2 ^ (44 : Nat) * 2 ^ f

theorem exists_isSpacing : ∃ f, IsSpacing f := by
  obtain ⟨e, he, hone⟩ := exists_one
  obtain ⟨f, rfl⟩ : ∃ f, e = 44 + f := ⟨1030, he⟩
  have hlt : f + 3 < maxExponent := by
    unfold maxExponent
    omega
  exact ⟨f, hlt, by rw [hone, Nat.pow_add]⟩

theorem isAmount_of_le (hfinite : v.isFinite = true) (h : Binary64.le 0 v = true) :
    isAmount v = true := by
  rw [isAmount, hfinite, lt, h, Bool.not_true, Bool.and_false, Bool.not_false, Bool.and_true]

/-- A course is scaled to tenths of a degree; the product is rounded to eight of the spacings. -/
theorem scaled_course (hf : IsSpacing f) (h : m.units < 360 * one) : ∃ p : Magnitude,
    finite false m * 10 = finite false p ∧ p.units = nearest (m.units * 10 * one) one ∧
    2 * p.units ≤ 20 * m.units + 8 * 2 ^ f ∧ 20 * m.units ≤ 2 * p.units + 8 * 2 ^ f := by
  have hone := hf.one_eq
  have hspacing : 2 ^ (f + 3) = 8 * 2 ^ f := by rw [Nat.pow_add, Nat.mul_comm]
  have hlt : m.units * 10 < 2 ^ (53 + (f + 3)) := by
    rw [Nat.pow_add, hspacing]
    omega
  obtain ⟨p, hp, hnearest, hup, hdown⟩ := mul_ofNat false (w := 10) (by decide) hf.exponent_lt hlt
  rw [hspacing] at hup hdown
  exact ⟨p, hp, hnearest, by omega, by omega⟩

theorem courseCode_eq {p : Magnitude} (hm : Binary64.le 0 (finite false m) = true)
    (hp : finite false m * 10 = finite false p) (hle : halfUp p.units one ≤ courseNotAvailable) :
    courseCode (finite false m) = .ok (halfUp p.units one) := by
  have hcode : tenths courseMaxCode (finite false m) = min (halfUp p.units one) courseMaxCode := by
    rw [tenths, hp, roundNat, if_neg (by decide)]
  have hmax : courseNotAvailable ≤ courseMaxCode := by decide
  rw [courseCode, if_pos (isAmount_of_le rfl hm), hcode, Nat.min_eq_left (Nat.le_trans hle hmax)]

/-- A course below a full turn does not go past its code. -/
theorem halfUp_le_of_lt {p : Magnitude} (h : m.units < 360 * one)
    (hp : p.units = nearest (m.units * 10 * one) one) : halfUp p.units one ≤ courseNotAvailable := by
  unfold courseNotAvailable
  have hfull : nearest (3600 * one * one) one = 3600 * one := nearest_whole (by decide) pos_one
  have hmono : nearest (m.units * 10 * one) one ≤ nearest (3600 * one * one) one :=
    nearest_mono (Nat.mul_le_mul_right _ (by omega))
  have hpos := pos_one
  rw [← Nat.lt_succ_iff, halfUp_lt_iff pos_one]
  omega

/-- The courses that are sent with the code of a course that is not available. -/
theorem notAvailable_iff {p : Magnitude} (h : m.units < 360 * one)
    (hp : p.units = nearest (m.units * 10 * one) one) :
    halfUp p.units one = courseNotAvailable ↔ firstFullTurn.units ≤ m.units := by
  have hle := halfUp_le_of_lt h hp
  have hiff : halfUp p.units one = courseNotAvailable ↔
      2 * (courseNotAvailable * one) ≤ 2 * p.units + one := by
    rw [← le_halfUp_iff pos_one]
    omega
  rw [hiff, hp]
  constructor
  · intro hhigh
    by_contra hlt
    -- The number in front of the first of them is still scaled to less than the last half.
    have hgap := units_add_le (Nat.not_le.mp hlt) (by decide)
    have hbelow : nearest (m.units * 10 * one) one ≤
        nearest ((firstFullTurn.units - 2 ^ firstFullTurn.exponent) * 10 * one) one :=
      nearest_mono (Nat.mul_le_mul_right _ (Nat.mul_le_mul_right _ (by omega)))
    have hless : 2 * nearest ((firstFullTurn.units - 2 ^ firstFullTurn.exponent) * 10 * one) one + one <
        2 * (courseNotAvailable * one) := by
      decide +kernel
    omega
  · intro hge
    have habove : nearest (firstFullTurn.units * 10 * one) one ≤ nearest (m.units * 10 * one) one :=
      nearest_mono (Nat.mul_le_mul_right _ (Nat.mul_le_mul_right _ hge))
    have hmore : 2 * (courseNotAvailable * one) ≤
        2 * nearest (firstFullTurn.units * 10 * one) one + one := by
      decide +kernel
    omega

/-! ## What is read -/

theorem abs_sub_le_of_units {a b : Nat} (hf : IsSpacing f)
    (hab : 20 * a ≤ 20 * b + one + 18 * 2 ^ f) (hba : 20 * b ≤ 20 * a + one + 18 * 2 ^ f) :
    |(a : ℚ) / one - b / one| ≤ 1 / 20 + 1 / 2 ^ 44 := by
  have hpos : (0 : ℚ) < one := pos_one_rat
  have hone : (one : ℚ) = 2 ^ 44 * 2 ^ f := by
    rw [hf.one_eq]
    push_cast
    rfl
  have hab' : (20 : ℚ) * a ≤ 20 * b + one + 18 * 2 ^ f := by exact_mod_cast hab
  have hba' : (20 : ℚ) * b ≤ 20 * a + one + 18 * 2 ^ f := by exact_mod_cast hba
  rw [← sub_div, abs_div, abs_of_pos hpos, div_le_iff₀ hpos, abs_le]
  constructor
  · linarith
  · linarith

/-- The course of a code is rounded to a spacing. -/
theorem units_of_course {c : Nat} (hf : IsSpacing f) (hc : c < courseNotAvailable) :
    ∃ q : Magnitude, course c = finite false q ∧
      20 * q.units ≤ 2 * (c * one) + 10 * 2 ^ f ∧ 2 * (c * one) ≤ 20 * q.units + 10 * 2 ^ f := by
  have hone := hf.one_eq
  have hexponent : f < maxExponent := Nat.lt_of_le_of_lt (Nat.le_add_right f 3) hf.exponent_lt
  obtain ⟨k, hk, hunits⟩ := ofNat_eq (Nat.lt_trans hc (by decide))
  have hlt : k.units < 2 ^ (53 + f) * 10 := by
    have hfull : c * one < 3600 * one := Nat.mul_lt_mul_of_pos_right hc pos_one
    rw [hunits, Nat.pow_add]
    omega
  obtain ⟨q, hq, hup, hdown⟩ := div_ofNat false (w := 10) (by decide) (by decide) hexponent hlt
  refine ⟨q, ?_, by omega, by omega⟩
  rw [course, if_neg (Nat.ne_of_lt hc), ofTenths, hk]
  exact hq

theorem course_notAvailable : course courseNotAvailable = finite false .zero := by
  decide +kernel

/-- The course that is read is near the one that was sent. -/
theorem arc_course_le {p : Magnitude} (hf : IsSpacing f) (h : m.units < 360 * one)
    (hp : p.units = nearest (m.units * 10 * one) one)
    (hup : 2 * p.units ≤ 20 * m.units + 8 * 2 ^ f)
    (hdown : 20 * m.units ≤ 2 * p.units + 8 * 2 ^ f) :
    arc (course (halfUp p.units one)).value (finite false m).value ≤ 1 / 20 + 1 / 2 ^ 44 := by
  have hle := halfUp_le_of_lt h hp
  obtain ⟨hlow, hhigh⟩ := halfUp_bounds p.units pos_one
  rcases Nat.lt_or_eq_of_le hle with hlt | heq
  · obtain ⟨q, hq, hqup, hqdown⟩ := units_of_course hf hlt
    have hnear := abs_sub_le_of_units (a := q.units) (b := m.units) hf (by omega) (by omega)
    rw [hq, value_of_positive, value_of_positive]
    exact le_trans (min_le_left _ _) hnear
  · -- The code of the full turn is read as zero, which is as far away on the circle.
    rw [heq, courseNotAvailable] at hlow hhigh
    have hnear := abs_sub_le_of_units (a := 360 * one) (b := m.units) hf (by omega) (by omega)
    have hfull : ((360 * one : Nat) : ℚ) / one = 360 := by
      rw [Nat.cast_mul, mul_div_cancel_right₀ _ (ne_of_gt pos_one_rat)]
      rfl
    have hnonneg : (0 : ℚ) ≤ m.units / one := div_nonneg (Nat.cast_nonneg _) (Nat.cast_nonneg _)
    rw [hfull] at hnear
    rw [heq, course_notAvailable, value_zero, value_of_positive, arc, zero_sub, abs_neg,
      abs_of_nonneg hnonneg]
    exact le_trans (min_le_right _ _) (le_trans (le_abs_self _) hnear)

/-! ## What is sent -/

theorem course_written {code : Nat} (hcode : courseCode v = .ok code)
    (hle : code ≤ courseNotAvailable) (w : Writer) (field : String) :
    ∃ w', w.course field v = (w', .ok ()) ∧ w'.bits = w.bits.pushUint code courseWidth ∧
      w'.bits.uintAt w.bits.length courseWidth = .ok code ∧
      w'.bits.courseAt w.bits.length = .ok (course code) := by
  have hfits : code < 2 ^ courseWidth := Nat.lt_of_le_of_lt hle (by decide)
  have hread := w.bits.uintAt_pushUint hfits
  refine ⟨⟨w.bits.pushUint code courseWidth⟩, ?_, rfl, hread, ?_⟩
  · rw [Writer.course, hcode]
    exact if_neg (Nat.not_le.mpr hfits)
  · rw [Bits.courseAt, hread]
    rfl

/-- A number from zero up to a full turn is the negative zero or has no sign. -/
theorem sign_of_course (hlow : Binary64.le 0 v = true) (hhigh : v.lt 360 = true) :
    v = finite true .zero ∨ ∃ m : Magnitude, v = finite false m ∧ m.units < 360 * one := by
  obtain ⟨k, hk, hunits⟩ := ofNat_eq (n := 360) (by decide)
  have hfull : (360 : Binary64) = finite false k := hk
  have hzero : (0 : Binary64) = finite false .zero := by decide +kernel
  rw [hzero] at hlow
  rw [hfull] at hhigh
  cases v with
  | finite s m =>
    cases s with
    | true =>
      have hunits : m.units = 0 := by
        have hle : ((Magnitude.zero.units : Int)) ≤ -(m.units : Int) := of_decide_eq_true hlow
        omega
      exact .inl (congrArg (finite true) (eq_zero_of_units hunits))
    | false =>
      rw [lt_iff_value, value_of_positive, value_of_positive,
        div_lt_div_iff_of_pos_right pos_one_rat, Nat.cast_lt, hunits] at hhigh
      exact .inr ⟨m, rfl, hhigh⟩
  | infinite s =>
    cases s with
    | true => cases hlow
    | false => cases hhigh
  | nan => cases hlow

/-- Every course below a full turn is sent, and the course that is read for it is a twentieth of a
degree away at most, up to rounding. The code is that of a course that is not available for the
courses from the number nearest to 359.95 on, and for no others. -/
theorem course_sent (hlow : Binary64.le 0 v = true) (hhigh : v.lt 360 = true) (w : Writer)
    (field : String) : ∃ code w', w.course field v = (w', .ok ()) ∧
      w'.bits = w.bits.pushUint code courseWidth ∧ code ≤ courseNotAvailable ∧
      w'.bits.uintAt w.bits.length courseWidth = .ok code ∧
      w'.bits.courseAt w.bits.length = .ok (course code) ∧
      arc (course code).value v.value ≤ 1 / 20 + 1 / 2 ^ 44 ∧
      (code = courseNotAvailable ↔ (Binary64.ofRatio 35995 100).le v = true) := by
  rcases sign_of_course hlow hhigh with rfl | ⟨m, rfl, hm⟩
  · have htenths : tenths courseMaxCode (finite true .zero) = 0 := by decide +kernel
    have hcourse : course 0 = finite false .zero := by decide +kernel
    have hbelow : (Binary64.ofRatio 35995 100).le (finite true .zero) = false := by decide +kernel
    have hcode : courseCode (finite true .zero) = .ok 0 := by
      rw [courseCode, if_pos (isAmount_of_le rfl hlow), htenths]
    obtain ⟨w', hw, hbits, hread, hreadCourse⟩ := course_written hcode (Nat.zero_le _) w field
    refine ⟨0, w', hw, hbits, Nat.zero_le _, hread, hreadCourse, ?_, ?_⟩
    · rw [hcourse, value_of_negative, value_zero, neg_zero, arc, sub_zero, abs_zero]
      exact le_trans (min_le_left _ _) (by norm_num)
    · rw [hbelow]
      exact ⟨(nomatch ·), (nomatch ·)⟩
  · obtain ⟨f, hf⟩ := exists_isSpacing
    obtain ⟨p, hp, hnearest, hup, hdown⟩ := scaled_course hf hm
    have hle := halfUp_le_of_lt hm hnearest
    obtain ⟨w', hw, hbits, hread, hcourse⟩ := course_written (courseCode_eq hlow hp hle) hle w field
    refine ⟨_, w', hw, hbits, hle, hread, hcourse, arc_course_le hf hm hnearest hup hdown, ?_⟩
    rw [notAvailable_iff hm hnearest, firstFullTurn_eq, le_iff_value, value_of_positive,
      value_of_positive, div_le_div_iff_of_pos_right pos_one_rat, Nat.cast_le]

theorem course_sent_upToFullTurn :
    ∃ w', Writer.empty.course "course" (.ofRatio 35996 100) = (w', .ok ()) ∧
    w'.bits.uintAt 0 courseWidth = .ok courseNotAvailable ∧
    arc (course courseNotAvailable).value (Binary64.ofRatio 35996 100).value ≤
      1 / 20 + 1 / 2 ^ 44 := by
  obtain ⟨code, w', hw, -, -, hread, -, hnear, hiff⟩ := course_sent (v := .ofRatio 35996 100)
    (by decide +kernel) (by decide +kernel) .empty "course"
  obtain rfl := hiff.mpr (by decide +kernel)
  exact ⟨w', hw, hread, hnear⟩

/-- A course of 359.96 degrees is sent as one that is not available. -/
theorem not_course_available : ¬ ∀ v : Binary64, Binary64.le 0 v = true → v.lt 360 = true →
    ∃ code, courseCode v = .ok code ∧ code ≠ courseNotAvailable := by
  intro h
  obtain ⟨code, hcode, hne⟩ := h (.ofRatio 35996 100) (by decide +kernel) (by decide +kernel)
  have hamount : isAmount (.ofRatio 35996 100) = true := by decide +kernel
  have htenths : tenths courseMaxCode (.ofRatio 35996 100) = courseNotAvailable := by decide +kernel
  rw [courseCode, if_pos hamount, htenths] at hcode
  exact hne (Except.ok.inj hcode).symm

end Quantity

end Transponder

import Transponder.Proofs.Binary64.Values
import Transponder.Proofs.Json.Numbers
import Transponder.Report.Cell

/-!
# The places of a number in a report

A number is rounded to some places twice over: among comma-separated values its exact value is
rounded, a half going to the even digit, and in JSON the number that was computed for it when scaled
is, a half going away from zero (`Cell.rounded`). The two forms state the same decimal unless that
computed number is a half that the exact one does not exceed (`numbers_shown`). Then JSON is one step
further away from zero.
-/

namespace Transponder

-- Powers are those of `Nat` and `Int` themselves.
attribute [local instance (high)] instPowNat

-- The number of units in one is never computed here.
attribute [local irreducible] Magnitude.one

/-! ## The text of a count of steps -/

namespace Decimal

variable {places n n' : Nat}

/-- The text of `n * 10 ^ -places`. -/
def stepsText (places n : Nat) : String :=
  let fraction := Nat.toDigits 10 (n % 10 ^ places)
  toString (n / 10 ^ places) ++ "." ++
    String.ofList (List.replicate (places - fraction.length) '0' ++ fraction)

theorem fixed_eq (s : Bool) (m : Magnitude) (places : Nat) : (Binary64.finite s m).fixed places =
    sign s ++ stepsText places (Rounding.halfEven (m.units * 10 ^ places) Magnitude.one) :=
  rfl

theorem ofDigits_zeros (count : Nat) (ds : List Char) :
    ((List.replicate count '0' ++ ds).map Json.digitOf).foldl (fun n d => n * 10 + d) 0 =
      (ds.map Json.digitOf).foldl (fun n d => n * 10 + d) 0 := by
  induction count with
  | zero => rfl
  | succ count ih =>
    rw [List.replicate_succ, List.cons_append, List.map_cons, List.foldl_cons]
    exact ih

theorem toList_stepsText : (stepsText places n).toList = Nat.toDigits 10 (n / 10 ^ places) ++ '.' ::
    (List.replicate (places - (Nat.toDigits 10 (n % 10 ^ places)).length) '0' ++
      Nat.toDigits 10 (n % 10 ^ places)) := by
  rw [stepsText, Nat.toString_eq_ofList_toDigits]
  simp only [String.toList_append, String.toList_ofList, List.append_assoc]
  rfl

/-- Different counts have different texts. -/
theorem stepsText_injective (h : stepsText places n = stepsText places n') : n = n' := by
  have hpoint : ∀ {ds}, Json.IsDigits ds → '.' ∉ ds := fun hds hmem =>
    absurd (hds.2 '.' hmem) (by decide)
  have hlist := congrArg String.toList h
  rw [toList_stepsText, toList_stepsText] at hlist
  obtain ⟨hwhole, -, hfraction⟩ :=
    (List.append_cons_inj_of_notMem (hpoint (Json.isDigits_toDigits _))
      (hpoint (Json.isDigits_zeros (Json.isDigits_toDigits _)).1)).mp hlist
  have hvalue : ∀ {n n'}, Nat.toDigits 10 n = Nat.toDigits 10 n' → n = n' := fun {n n'} heq => by
    rw [← Json.foldl_digitOf_toDigits n, heq, Json.foldl_digitOf_toDigits]
  have hdiv := hvalue hwhole
  have hmod : n % 10 ^ places = n' % 10 ^ places := by
    rw [← Json.foldl_digitOf_toDigits (n % 10 ^ places), ← ofDigits_zeros, hfraction, ofDigits_zeros,
      Json.foldl_digitOf_toDigits]
  rw [← Nat.div_add_mod n (10 ^ places), hdiv, hmod, Nat.div_add_mod]

end Decimal

/-! ## Two ways to round -/

namespace Cell

open Magnitude Rounding Binary64

variable {m p q : Magnitude} {s t : Bool} {places j k n X : Nat} {x : Binary64} {cell : Cell}

/-- The scaled number is computed as a half above `k`, and exactly it goes to `k`. -/
def Tied (X k : Nat) : Prop :=
  2 * nearest (X * one) one = (2 * k + 1) * one ∧
    (2 * X < (2 * k + 1) * one ∨ 2 * X = (2 * k + 1) * one ∧ k % 2 = 0)

theorem odd_mul (k : Nat) : (2 * k + 1) * one = 2 * (k * one) + one := by
  rw [Nat.succ_mul, Nat.mul_assoc]

/-- A scaled number goes up alone. -/
theorem halfUp_of_tied (h : Tied X k) : halfUp (nearest (X * one) one) one = k + 1 := by
  obtain ⟨hhalf, -⟩ := h
  have hpos := pos_one
  have hsucc : (k + 1) * one = k * one + one := Nat.succ_mul k one
  have hsucc' : (k + 1 + 1) * one = (k + 1) * one + one := Nat.succ_mul _ one
  rw [odd_mul] at hhalf
  refine Nat.le_antisymm (Nat.le_of_lt_succ ((halfUp_lt_iff pos_one).mpr ?_))
    ((le_halfUp_iff pos_one).mpr ?_)
  · rw [Nat.succ_eq_add_one, hsucc']
    omega
  · omega

theorem halfEven_of_tied (h : Tied X k) (hk : k < 2 ^ (52 : Nat)) : halfEven X one = k := by
  obtain ⟨hhalf, hbelow | ⟨heq, heven⟩⟩ := h
  · have hpos := pos_one
    rw [odd_mul] at hhalf hbelow
    refine halfEven_eq ?_ hbelow
    -- The half below `k` is not reached, or the computed number would not be the one above.
    by_contra hle
    cases k with
    | zero => omega
    | succ k =>
      have hsucc : (k + 1) * one = k * one + one := Nat.succ_mul k one
      have hnear := nearest_le_half (a := 2 * k + 1) (q := X) (by omega) (by rw [odd_mul]; omega)
      rw [odd_mul] at hnear
      omega
  · rw [halfEven_half heq pos_one, heven, Nat.add_zero]

theorem halfUp_le (hlt : n < 2 ^ (52 : Nat) * one) : halfUp n one ≤ 2 ^ (52 : Nat) := by
  refine Nat.le_of_lt_succ ((halfUp_lt_iff pos_one).mpr ?_)
  have hpos := pos_one
  have hsucc : (2 ^ (52 : Nat) + 1) * one = 2 ^ (52 : Nat) * one + one := Nat.succ_mul _ one
  rw [Nat.succ_eq_add_one, hsucc]
  omega

/-- Any other scaled number goes to the same natural number in both ways. -/
theorem halfUp_eq_halfEven (hlt : nearest (X * one) one < 2 ^ (52 : Nat) * one)
    (hnot : ∀ k, ¬ Tied X k) : halfUp (nearest (X * one) one) one = halfEven X one := by
  obtain ⟨hlow, hhigh⟩ := halfUp_bounds (nearest (X * one) one) pos_one
  have hle := halfUp_le hlt
  have hbelow : 2 * X < 2 * (halfUp (nearest (X * one) one) one * one) + one := by
    by_contra hge
    rcases Nat.lt_or_eq_of_le hle with hN | hN
    · have hnear := half_le_nearest (a := 2 * halfUp (nearest (X * one) one) one + 1) (q := X)
        (by omega) (by rw [odd_mul]; omega)
      rw [odd_mul] at hnear
      omega
    · rw [hN] at hge
      have hmono : nearest (2 ^ (52 : Nat) * one * one) one ≤ nearest (X * one) one :=
        nearest_mono (Nat.mul_le_mul_right _ (by omega))
      rw [nearest_whole (by decide) pos_one] at hmono
      omega
  by_cases habove : 2 * (halfUp (nearest (X * one) one) one * one) < 2 * X + one
  · exact (halfEven_eq habove hbelow).symm
  · -- The exact number does not exceed the half that was computed, so it is that half and `k` is odd.
    have hpos := pos_one
    cases hN : halfUp (nearest (X * one) one) one with
    | zero =>
      rw [hN] at habove
      omega
    | succ k =>
      have hsucc : (k + 1) * one = k * one + one := Nat.succ_mul k one
      have hodd := odd_mul k
      rw [hN, hsucc] at hlow habove
      have hnear := nearest_le_half (a := 2 * k + 1) (q := X) (by omega) (by omega)
      have hhalf : 2 * nearest (X * one) one = (2 * k + 1) * one := by omega
      obtain ⟨hge, hparity⟩ := not_or.mp fun h => hnot k ⟨hhalf, h⟩
      have heq : 2 * X = (2 * k + 1) * one := by omega
      have hk : k % 2 = 1 := by
        have hne : ¬ k % 2 = 0 := fun heven => hparity ⟨heq, heven⟩
        omega
      rw [halfEven_half heq pos_one, hk]

/-! ## The number in JSON -/

/-- The exponent of the spacing of the numbers that have about `2 ^ 52` steps of `10 ^ -places`; the
spacing is less than a step there. -/
structure HasSpacing (places j : Nat) : Prop where
  scale_lt : 10 ^ places < 2 ^ (53 : Nat)
  exponent_lt : j < maxExponent
  lt_one : 10 ^ places * 2 ^ j < one
  one_lt : one < 2 * (10 ^ places * 2 ^ j)

theorem exists_hasSpacing (h : places = coordinatePlaces ∨ places = decimalPlaces) :
    ∃ j, HasSpacing places j := by
  obtain ⟨e, he, hone⟩ := exists_one
  rcases h with rfl | rfl
  · obtain ⟨j, rfl⟩ : ∃ j, e = j + 20 := ⟨1054, he⟩
    have hscale : 10 ^ coordinatePlaces = 1000000 := rfl
    have hj : j < maxExponent := by
      unfold maxExponent
      omega
    have hpos := Nat.two_pow_pos j
    rw [Nat.pow_add] at hone
    exact ⟨j, by decide, hj, by rw [hscale]; omega, by rw [hscale]; omega⟩
  · obtain ⟨j, rfl⟩ : ∃ j, e = j + 4 := ⟨1070, he⟩
    have hscale : 10 ^ decimalPlaces = 10 := rfl
    have hj : j < maxExponent := by
      unfold maxExponent
      omega
    have hpos := Nat.two_pow_pos j
    rw [Nat.pow_add] at hone
    exact ⟨j, by decide, hj, by rw [hscale]; omega, by rw [hscale]; omega⟩

/-- A whole number of steps is scaled down to a number that is nearest to so many steps. -/
theorem scaledDown_whole (h : HasSpacing places j) (s : Bool) (hn : n ≤ 2 ^ (52 : Nat)) :
    ∃ q, ofUnits s (n * one) 1 / ofNat (10 ^ places) = finite s q ∧
      halfEven (q.units * 10 ^ places) one = n := by
  obtain ⟨hscale, hj, hbelow, habove⟩ := h
  obtain ⟨r, hr, hunits⟩ := ofUnits_whole s (Nat.lt_of_le_of_lt hn (by decide : 2 ^ (52 : Nat) < _))
  have hlt : r.units < 2 ^ (53 + j) * 10 ^ places := by
    rw [hunits]
    calc n * one ≤ 2 ^ (52 : Nat) * one := Nat.mul_le_mul_right _ hn
      _ < 2 ^ (52 : Nat) * (2 * (10 ^ places * 2 ^ j)) :=
        Nat.mul_lt_mul_of_pos_left habove (Nat.two_pow_pos _)
      _ = 2 ^ (53 + j) * 10 ^ places := by rw [Nat.pow_add]; ring
  obtain ⟨q, hq, hup, hdown⟩ := div_ofNat s hscale (Nat.pow_pos (by decide)) hj hlt
  rw [hunits] at hup hdown
  refine ⟨q, by rw [hr, hq], halfEven_eq (by omega) (by omega)⟩

/-- The number that is computed for `x * 10 ^ places`. -/
def scaled (places : Nat) (x : Binary64) : Binary64 :=
  x * .ofNat (10 ^ places)

theorem rounded_of_scaled (h : scaled places x = finite s p) : rounded places x =
    ofUnits s (halfUp p.units one * one) 1 / ofNat (10 ^ places) := by
  show (scaled places x).round / ofNat (10 ^ places) = _
  rw [h, Binary64.round]

theorem units_of_scaled (hscale : 10 ^ places < 2 ^ (53 : Nat))
    (h : scaled places (finite s m) = finite t p) :
    t = s ∧ p.units = nearest (m.units * 10 ^ places * one) one := by
  rw [scaled, mul_ofNat_eq s m hscale] at h
  exact units_of_ofUnits h

/-- A number that is scaled to less than `2 ^ 52` has a text in JSON that goes up at each half. -/
theorem rounded_small (hj : HasSpacing places j) (hp : scaled places x = finite s p)
    (hsmall : p.units < 2 ^ (52 : Nat) * one) : (rounded places x).isFinite = true ∧
      (rounded places x).fixed places =
        Decimal.sign s ++ Decimal.stepsText places (halfUp p.units one) := by
  obtain ⟨q, hq, hsteps⟩ := scaledDown_whole hj s (halfUp_le hsmall)
  rw [rounded_of_scaled hp, hq]
  refine ⟨rfl, ?_⟩
  rw [Decimal.fixed_eq, hsteps]

/-- Numbers from `2 ^ 52` on are whole. -/
theorem whole_of_le (h : 2 ^ (52 : Nat) * one ≤ p.units) : halfUp p.units one * one = p.units := by
  obtain ⟨e, -, hone⟩ := exists_one
  have hexponent : e ≤ p.exponent := by
    by_contra hlt
    have hpow : 2 ^ (53 : Nat) * 2 ^ p.exponent ≤ 2 ^ (52 : Nat) * 2 ^ e :=
      calc 2 ^ (53 : Nat) * 2 ^ p.exponent = 2 ^ (52 : Nat) * 2 ^ (p.exponent + 1) := by
            rw [Nat.pow_succ' (n := p.exponent), ← Nat.mul_assoc]
        _ ≤ 2 ^ (52 : Nat) * 2 ^ e := mul_two_pow_le (Nat.le_refl _) (Nat.not_le.mp hlt)
    have hmantissa : p.units < 2 ^ (53 : Nat) * 2 ^ p.exponent :=
      Nat.mul_lt_mul_of_pos_right p.mantissa_lt (Nat.two_pow_pos _)
    rw [hone] at h
    omega
  have hmultiple : p.units = p.mantissa * 2 ^ (p.exponent - e) * one := by
    rw [hone, Nat.mul_assoc, ← Nat.pow_add, Nat.sub_add_cancel hexponent]
    rfl
  rw [hmultiple, halfUp_mul_right _ pos_one]

/-- A number that is scaled to more than that is changed by a small part of it. -/
theorem rounded_large (hj : HasSpacing places j) (hp : scaled places (finite s m) = finite s p)
    (hlarge : 2 ^ (52 : Nat) * one ≤ p.units) : ∃ q, rounded places (finite s m) = finite s q ∧
      2 ^ (51 : Nat) * q.units ≤ 2 ^ (51 : Nat) * m.units + m.units ∧
      2 ^ (51 : Nat) * m.units ≤ 2 ^ (51 : Nat) * q.units + m.units := by
  obtain ⟨hscale, -, hbelow, -⟩ := hj
  obtain ⟨-, hproduct⟩ := units_of_scaled hscale hp
  have hpositive : 0 < 10 ^ places := Nat.pow_pos (by decide)
  have hpower : 10 ^ places ≤ one :=
    Nat.le_trans (Nat.le_mul_of_pos_right _ (Nat.two_pow_pos j)) (Nat.le_of_lt hbelow)
  -- Rounding to a whole number changes nothing.
  have hkept : nearest p.units 1 = p.units := by
    have hunits := nearest_units p Nat.one_pos
    rwa [Nat.mul_one] at hunits
  obtain ⟨r, hr, hwhole⟩ := ofUnits_eq s (hkept ▸ p.units_lt)
  have hquotient : nearest (r.units * one) (10 ^ places * one) < limit := by
    have hle : r.units * one ≤ r.units * (10 ^ places * one) :=
      Nat.mul_le_mul_left _ (Nat.le_mul_of_pos_left _ hpositive)
    refine Nat.lt_of_le_of_lt (nearest_mono hle) ?_
    rw [nearest_units r (Nat.mul_pos hpositive pos_one)]
    exact r.units_lt
  obtain ⟨q, hq, hnearest⟩ := ofUnits_eq s hquotient
  rw [hwhole, hkept] at hnearest
  have hnottiny : 2 ^ (52 : Nat) ≤ m.units * 10 ^ places := by
    by_contra hlt
    have hexact : nearest (m.units * 10 ^ places * 2 ^ 0 * one) one = m.units * 10 ^ places * 2 ^ 0 :=
      nearest_mul_two_pow (by omega) pos_one
    rw [Nat.pow_zero, Nat.mul_one, ← hproduct] at hexact
    have hpos := pos_one
    omega
  have hspacing : 2 ^ (52 : Nat) * (10 ^ places * one) ≤ p.units * one := by
    rw [← Nat.mul_assoc]
    exact Nat.mul_le_mul_right _ (Nat.le_trans (Nat.mul_le_mul_left _ hpower) hlarge)
  obtain ⟨hup, hdown⟩ := nearest_relative pos_one (Nat.mul_le_mul_right one hnottiny)
  obtain ⟨hup', hdown'⟩ := nearest_relative (Nat.mul_pos hpositive pos_one) hspacing
  rw [← hproduct] at hup hdown
  rw [← hnearest] at hup' hdown'
  have hnonneg := Nat.zero_le (m.units * 10 ^ places * one)
  refine ⟨q, ?_, ?_, ?_⟩
  · rw [rounded_of_scaled hp, whole_of_le hlarge, hr, div_ofNat_eq s r hscale hpositive, hq]
  · refine Nat.le_of_mul_le_mul_right ?_ (Nat.mul_pos hpositive pos_one)
    linarith
  · refine Nat.le_of_mul_le_mul_right ?_ (Nat.mul_pos hpositive pos_one)
    linarith

/-! ## Both forms of a number -/

/-- The cells that hold a number, and the places that it is shown with. -/
inductive Measures : Cell → Nat → Binary64 → Prop where
  | coordinate (x : Binary64) : Measures (.coordinate x) coordinatePlaces x
  | decimal (x : Binary64) : Measures (.decimal x) decimalPlaces x

/-- Scaled by `10 ^ places`, a number is computed as the half above `k`, while exactly it is below
that half, or it is that half and `k` is even. -/
def TiesAway (places : Nat) (x : Binary64) (k : Nat) : Prop :=
  |(scaled places x).value| = k + 1 / 2 ∧
    (|x.value| * 10 ^ places < k + 1 / 2 ∨ |x.value| * 10 ^ places = k + 1 / 2 ∧ k % 2 = 0)

theorem div_one_eq_iff (n k : Nat) : (n : ℚ) / one = k + 1 / 2 ↔ 2 * n = (2 * k + 1) * one := by
  rw [div_eq_iff (ne_of_gt pos_one_rat)]
  constructor
  · intro h
    have hcast : (2 : ℚ) * n = (2 * k + 1) * one := by linarith
    exact_mod_cast hcast
  · intro h
    have hcast : (2 : ℚ) * n = (2 * k + 1) * one := by exact_mod_cast h
    linarith

theorem div_one_lt_iff (n k : Nat) : (n : ℚ) / one < k + 1 / 2 ↔ 2 * n < (2 * k + 1) * one := by
  rw [div_lt_iff₀ pos_one_rat]
  constructor
  · intro h
    have hcast : (2 : ℚ) * n < (2 * k + 1) * one := by linarith
    exact_mod_cast hcast
  · intro h
    have hcast : (2 : ℚ) * n < (2 * k + 1) * one := by exact_mod_cast h
    linarith

theorem tiesAway_iff (hscale : 10 ^ places < 2 ^ (53 : Nat))
    (hp : scaled places (finite s m) = finite s p) :
    TiesAway places (finite s m) k ↔ Tied (m.units * 10 ^ places) k := by
  have hexact : |(finite s m).value| * 10 ^ places = ((m.units * 10 ^ places : Nat) : ℚ) / one := by
    rw [abs_value, Nat.cast_mul, div_mul_eq_mul_div]
    push_cast
    rfl
  rw [TiesAway, hp, abs_value, hexact, (units_of_scaled hscale hp).2, div_one_eq_iff, div_one_lt_iff,
    div_one_eq_iff]
  rfl

theorem isFinite_rounded (hj : HasSpacing places j) (s : Bool) (m : Magnitude) :
    (rounded places (finite s m)).isFinite = (scaled places (finite s m)).isFinite := by
  obtain ⟨k, hk, -⟩ := ofNat_eq hj.scale_lt
  have hrounded : rounded places (finite s m) = (scaled places (finite s m)).round / finite false k :=
    congrArg ((scaled places (finite s m)).round / ·) hk
  cases hp : scaled places (finite s m) with
  | finite t p =>
    obtain ⟨rfl, -⟩ := units_of_scaled hj.scale_lt hp
    rcases Nat.lt_or_ge p.units (2 ^ (52 : Nat) * one) with hsmall | hlarge
    · exact (rounded_small hj hp hsmall).1
    · obtain ⟨q, hq, -⟩ := rounded_large hj hp hlarge
      rw [hq]
      rfl
  | infinite t =>
    rw [hrounded, hp]
    rfl
  | nan =>
    rw [hrounded, hp]
    rfl

/-- The texts of a number whose steps can all be told apart. -/
theorem fixed_small (hj : HasSpacing places j) (hp : scaled places (finite s m) = finite s p)
    (hsmall : p.units < 2 ^ (52 : Nat) * one) :
    ((rounded places (finite s m)).fixed places = (finite s m).fixed places ↔
      ∀ k, ¬ TiesAway places (finite s m) k) ∧
    ∀ k, TiesAway places (finite s m) k →
      (finite s m).fixed places = Decimal.sign s ++ Decimal.stepsText places k ∧
      (rounded places (finite s m)).fixed places =
        Decimal.sign s ++ Decimal.stepsText places (k + 1) := by
  obtain ⟨-, hunits⟩ := units_of_scaled hj.scale_lt hp
  obtain ⟨-, htext⟩ := rounded_small hj hp hsmall
  have htied : ∀ k, TiesAway places (finite s m) k →
      (finite s m).fixed places = Decimal.sign s ++ Decimal.stepsText places k ∧
      (rounded places (finite s m)).fixed places =
        Decimal.sign s ++ Decimal.stepsText places (k + 1) := by
    intro k hk
    have hk := (tiesAway_iff hj.scale_lt hp).mp hk
    have hlt : k < 2 ^ (52 : Nat) := by
      have hhalf := hk.1
      rw [odd_mul, ← hunits] at hhalf
      exact Nat.lt_of_mul_lt_mul_right (show k * one < 2 ^ (52 : Nat) * one by omega)
    refine ⟨?_, ?_⟩
    · rw [Decimal.fixed_eq, halfEven_of_tied hk hlt]
    · rw [htext, hunits, halfUp_of_tied hk]
  refine ⟨⟨fun heq k hk => ?_, fun hnot => ?_⟩, htied⟩
  · obtain ⟨hexact, hcomputed⟩ := htied k hk
    rw [hexact, hcomputed] at heq
    have hsteps := Decimal.stepsText_injective (String.append_right_inj _ |>.mp heq)
    omega
  · have hnot' : ∀ k, ¬ Tied (m.units * 10 ^ places) k := fun k hk =>
      hnot k ((tiesAway_iff hj.scale_lt hp).mpr hk)
    rw [htext, Decimal.fixed_eq, hunits, halfUp_eq_halfEven (hunits ▸ hsmall) hnot']

theorem abs_value_sub_le (hq : 2 ^ (51 : Nat) * q.units ≤ 2 ^ (51 : Nat) * m.units + m.units)
    (hm : 2 ^ (51 : Nat) * m.units ≤ 2 ^ (51 : Nat) * q.units + m.units) (s : Bool) :
    |(finite s q).value - (finite s m).value| ≤ |(finite s m).value| / 2 ^ 51 := by
  have hq' : (2 : ℚ) ^ 51 * q.units ≤ 2 ^ 51 * m.units + m.units := by exact_mod_cast hq
  have hm' : (2 : ℚ) ^ 51 * m.units ≤ 2 ^ 51 * q.units + m.units := by exact_mod_cast hm
  have hpositive : |(finite false q).value - (finite false m).value| ≤ (m.units : ℚ) / one / 2 ^ 51 := by
    rw [value_of_positive, value_of_positive, ← sub_div, abs_div, abs_of_pos pos_one_rat,
      div_right_comm, div_le_div_iff_of_pos_right pos_one_rat, abs_le]
    constructor
    · linarith
    · linarith
  rw [abs_value]
  cases s with
  | false => exact hpositive
  | true => rwa [value_of_negative, value_of_negative, ← neg_sub', abs_neg]

/-- A number has a finite value in JSON as long as scaling it gives one. It is the same decimal there
as among comma-separated values, with its sign, unless it ties away; then it is one step further away
from zero. From `2 ^ 52` on, where numbers have no fraction, it is changed by a small part of it. -/
theorem numbers_shown (h : cell.Measures places x) (hx : x.isFinite = true) :
    ∃ y, cell.json = .real y ∧ cell.csv = x.fixed places ∧
      y.isFinite = (scaled places x).isFinite ∧
      ((scaled places x).isFinite = true →
        (|(scaled places x).value| < 2 ^ 52 →
          (y.fixed places = cell.csv ↔ ∀ k, ¬ TiesAway places x k) ∧
          ∀ k, TiesAway places x k →
            cell.csv = Decimal.sign x.isNegative ++ Decimal.stepsText places k ∧
            y.fixed places = Decimal.sign x.isNegative ++ Decimal.stepsText places (k + 1)) ∧
        (2 ^ 52 ≤ |(scaled places x).value| → |y.value - x.value| ≤ |x.value| / 2 ^ 51)) := by
  have hforms : cell.json = .real (rounded places x) ∧ cell.csv = x.fixed places ∧
      (places = coordinatePlaces ∨ places = decimalPlaces) := by
    cases h with
    | coordinate => exact ⟨rfl, rfl, .inl rfl⟩
    | decimal => exact ⟨rfl, rfl, .inr rfl⟩
  obtain ⟨hjson, hcsv, hplaces⟩ := hforms
  obtain ⟨j, hj⟩ := exists_hasSpacing hplaces
  rw [hcsv]
  cases x with
  | finite s m =>
    refine ⟨_, hjson, rfl, isFinite_rounded hj s m, fun hfinite => ?_⟩
    cases hp : scaled places (finite s m) with
    | finite t p =>
      obtain ⟨rfl, -⟩ := units_of_scaled hj.scale_lt hp
      have hiff : |(finite t p).value| < 2 ^ 52 ↔ p.units < 2 ^ (52 : Nat) * one := by
        rw [abs_value, div_lt_iff₀ pos_one_rat]
        constructor
        · intro hlt
          exact_mod_cast hlt
        · intro hlt
          exact_mod_cast hlt
      refine ⟨fun hsmall => fixed_small hj hp (hiff.mp hsmall), fun hlarge => ?_⟩
      obtain ⟨q, hq, hup, hdown⟩ :=
        rounded_large hj hp (Nat.not_lt.mp fun hlt => absurd (hiff.mpr hlt) (not_lt.mpr hlarge))
      rw [hq]
      exact abs_value_sub_le hup hdown t
    | infinite t =>
      rw [hp] at hfinite
      cases hfinite
    | nan =>
      rw [hp] at hfinite
      cases hfinite
  | infinite s => cases hx
  | nan => cases hx

/-- The number nearest to 0.15 is below it, but it is computed as one step and a half. -/
theorem tiesAway_fifteenHundredths : TiesAway decimalPlaces (.ofRatio 15 100) 1 := by
  unfold TiesAway
  decide +kernel

theorem numbers_shown_fifteenHundredths : ∃ y, (Cell.decimal (.ofRatio 15 100)).json = .real y ∧
    y.isFinite = true ∧ (Cell.decimal (.ofRatio 15 100)).csv = "0.1" ∧
    y.fixed decimalPlaces = "0.2" := by
  obtain ⟨y, hjson, -, hfinite, hfixed⟩ :=
    numbers_shown (.decimal (.ofRatio 15 100)) (by decide +kernel)
  have hscaled : (scaled decimalPlaces (.ofRatio 15 100)).isFinite = true := by decide +kernel
  obtain ⟨hsmall, -⟩ := hfixed hscaled
  obtain ⟨hcsv, htext⟩ := (hsmall (by decide +kernel)).2 1 tiesAway_fifteenHundredths
  refine ⟨y, hjson, hfinite.trans hscaled, hcsv.trans ?_, htext.trans ?_⟩
  · decide +kernel
  · decide +kernel

/-- The two forms are not always the same decimal. -/
theorem not_shown_alike : ¬ ∀ x : Binary64, x.isFinite = true →
    ∃ y, (Cell.decimal x).json = .real y ∧ y.fixed decimalPlaces = (Cell.decimal x).csv := by
  intro h
  obtain ⟨y, hjson, htext⟩ := h (.ofRatio 15 100) (by decide +kernel)
  have hdiffer : (rounded decimalPlaces (.ofRatio 15 100)).fixed decimalPlaces ≠
      (Binary64.ofRatio 15 100).fixed decimalPlaces := by
    decide +kernel
  cases hjson
  exact hdiffer htext

end Cell

end Transponder

/-!
# Rounding a quotient to a natural number

`halfEven n d` and `halfUp n d` are the natural numbers nearest to `n / d`; they differ only on the
exact halves. The lemmas say that neither is ever more than a half away.
-/

namespace Transponder.Rounding

/-- The natural number nearest to `n / d`; an exact half goes to the even neighbour. -/
def halfEven (n d : Nat) : Nat :=
  if 2 * (n % d) < d then n / d
  else if d < 2 * (n % d) then n / d + 1
  else n / d + n / d % 2

/-- The natural number nearest to `n / d`; an exact half goes up. -/
def halfUp (n d : Nat) : Nat :=
  (2 * n + d) / (2 * d)

theorem le_halfEven (n d : Nat) : n / d ≤ halfEven n d := by
  unfold halfEven
  split
  · exact Nat.le_refl _
  · split <;> omega

theorem halfEven_le (n d : Nat) : halfEven n d ≤ n / d + 1 := by
  unfold halfEven
  split
  · omega
  · split <;> omega

/-- The result is at most half a unit above the quotient. -/
theorem two_mul_halfEven_mul_le (n d : Nat) : 2 * (halfEven n d * d) ≤ 2 * n + d := by
  have h := Nat.div_add_mod n d
  have e : n / d * d = d * (n / d) := Nat.mul_comm _ _
  unfold halfEven
  split
  · omega
  · split
    · rw [Nat.add_mul, Nat.one_mul]; omega
    · have : n / d % 2 = 0 ∨ n / d % 2 = 1 := by omega
      rcases this with h2 | h2 <;> rw [h2, Nat.add_mul] <;> omega

/-- The result is at most half a unit below the quotient. -/
theorem two_mul_le_halfEven_mul (n d : Nat) (hd : 0 < d) :
    2 * n ≤ 2 * (halfEven n d * d) + d := by
  have h := Nat.div_add_mod n d
  have hm := Nat.mod_lt n hd
  have e : n / d * d = d * (n / d) := Nat.mul_comm _ _
  unfold halfEven
  split
  · omega
  · split
    · rw [Nat.add_mul, Nat.one_mul]; omega
    · have : n / d % 2 = 0 ∨ n / d % 2 = 1 := by omega
      rcases this with h2 | h2 <;> rw [h2, Nat.add_mul] <;> omega

/-- A whole quotient is kept. -/
theorem halfEven_mul_right (n d : Nat) (hd : 0 < d) : halfEven (n * d) d = n := by
  simp [halfEven, Nat.mul_div_cancel _ hd, hd]

end Transponder.Rounding

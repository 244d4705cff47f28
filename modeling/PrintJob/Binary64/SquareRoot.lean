/-
# Whole square roots

`floorSqrt n` is the largest whole number whose square is at most `n`. The
iteration starts at a power of two that is not below the root and takes the
mean of the guess and `n / guess` as long as that gets smaller.
-/
import PrintJob.Power

namespace PrintJob

/-- The guesses fall until the mean of the guess and `n / guess` is no smaller. -/
def sqrtFrom (n guess : Nat) : Nat :=
  let next := (guess + n / guess) / 2
  if next < guess then sqrtFrom n next else guess
termination_by guess

/-- The largest whole number whose square is at most `n`. -/
def floorSqrt (n : Nat) : Nat := sqrtFrom n (2 ^ (n.log2 / 2 + 1))

/-- The square of a mean is not below the product. -/
theorem four_mul_le_sq_add (a b : Nat) : 4 * (a * b) ≤ (a + b) * (a + b) := by
  have h : ∀ m k : Nat, 4 * (m * (m + k)) ≤ (m + (m + k)) * (m + (m + k)) := by
    intro m k
    have : (m + (m + k)) * (m + (m + k)) = 4 * (m * (m + k)) + k * k := by
      simp only [Nat.mul_add, Nat.add_mul, Nat.mul_comm k m]
      omega
    omega
  rcases Nat.le_total a b with hle | hle
  · obtain ⟨k, rfl⟩ := Nat.exists_eq_add_of_le hle
    exact h a k
  · obtain ⟨k, rfl⟩ := Nat.exists_eq_add_of_le hle
    rw [Nat.mul_comm (b + k) b, Nat.add_comm (b + k) b]
    exact h b k

/-- A mean step from any positive guess ends at or above the root. -/
theorem lt_sq_succ_mean {n guess : Nat} (hg : 0 < guess) :
    n < ((guess + n / guess) / 2 + 1) * ((guess + n / guess) / 2 + 1) := by
  have hmean := four_mul_le_sq_add guess (n / guess + 1)
  have hn : n < guess * (n / guess + 1) := Nat.lt_mul_div_succ n hg
  have hle : guess + (n / guess + 1) ≤ 2 * ((guess + n / guess) / 2 + 1) := by omega
  have hsq := Nat.mul_le_mul hle hle
  have hfour : 2 * ((guess + n / guess) / 2 + 1) * (2 * ((guess + n / guess) / 2 + 1)) =
      4 * (((guess + n / guess) / 2 + 1) * ((guess + n / guess) / 2 + 1)) := by
    rw [Nat.mul_mul_mul_comm]
  omega

theorem sqrtFrom_sq_le (n guess : Nat) : sqrtFrom n guess * sqrtFrom n guess ≤ n := by
  fun_induction sqrtFrom n guess with
  | case1 guess next h ih => exact ih
  | case2 guess next h =>
    rcases Nat.eq_zero_or_pos guess with rfl | hg
    · simp
    -- the mean is no smaller, so the guess is at most the quotient
    · have hle : guess ≤ n / guess := by omega
      exact Nat.le_trans (Nat.mul_le_mul_left guess hle) (Nat.mul_div_le n guess)

theorem lt_sq_succ_sqrtFrom {n guess : Nat} (hg : n < (guess + 1) * (guess + 1)) :
    n < (sqrtFrom n guess + 1) * (sqrtFrom n guess + 1) := by
  fun_induction sqrtFrom n guess with
  | case1 guess next h ih =>
    have hpos : 0 < guess := Nat.lt_of_le_of_lt (Nat.zero_le _) h
    exact ih (lt_sq_succ_mean hpos)
  | case2 guess next h => exact hg

/-- The square of the root is at most the number. -/
theorem floorSqrt_sq_le (n : Nat) : floorSqrt n * floorSqrt n ≤ n := sqrtFrom_sq_le n _

/-- The square of the next whole number is more than the number. -/
theorem lt_sq_succ_floorSqrt (n : Nat) : n < (floorSqrt n + 1) * (floorSqrt n + 1) := by
  apply lt_sq_succ_sqrtFrom
  -- the first guess is a power of two above the root
  have h1 : n < 2 ^ (n.log2 + 1) := Nat.lt_log2_self
  have h2 : 2 ^ (n.log2 + 1) ≤ 2 ^ (n.log2 / 2 + 1 + (n.log2 / 2 + 1)) :=
    Nat.pow_le_pow_right (by decide) (by omega)
  rw [Nat.pow_add 2 (n.log2 / 2 + 1)] at h2
  have h3 := Nat.le_add_right (2 ^ (n.log2 / 2 + 1)) 1
  exact Nat.lt_of_lt_of_le (Nat.lt_of_lt_of_le h1 h2) (Nat.mul_le_mul h3 h3)

/-- A perfect square gives its root. -/
theorem floorSqrt_sq (r : Nat) : floorSqrt (r * r) = r := by
  have h1 := floorSqrt_sq_le (r * r)
  have h2 := lt_sq_succ_floorSqrt (r * r)
  have h3 : floorSqrt (r * r) ≤ r := Nat.mul_self_le_mul_self_iff.mp h1
  have h4 : r < floorSqrt (r * r) + 1 := Nat.mul_self_lt_mul_self_iff.mp h2
  omega

end PrintJob

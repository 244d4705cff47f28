/-
# Finite doubles

What runs of moves need to know about finite doubles: a finite double is a signed
magnitude, adding the positive zero keeps it finite, and a natural number of at
most 53 bits is a double exactly.
-/
import PrintJob.Binary64.Arithmetic

namespace PrintJob

/-! ## Natural numbers that are exact -/

theorem mul_two_pow_lt {n : Nat} (h : n ≤ 2 ^ 53) {a b : Nat} (hab : 53 + a < b) :
    n * 2 ^ a < 2 ^ b :=
  calc n * 2 ^ a ≤ 2 ^ 53 * 2 ^ a := Nat.mul_le_mul_right _ h
    _ = 2 ^ (53 + a) := (Nat.pow_add 2 53 a).symm
    _ < 2 ^ b := Nat.pow_lt_pow_right (by decide) hab

/-- Natural numbers of at most 53 bits stay inside the finite range. -/
theorem Magnitude.mul_one_lt_limit {n : Nat} (h : n ≤ 2 ^ 53) : n * one < limit := by
  have hwidth : 53 + fractionWidth < width := by decide
  unfold one limit
  exact mul_two_pow_lt h hwidth

/-- Natural numbers of at most 53 bits need no rounding. -/
theorem Magnitude.aligned_mul_one {n : Nat} (h : n ≤ 2 ^ 53) :
    2 ^ ((n * one).log2 - 52) ∣ n * one := by
  unfold one
  exact aligned_mul_two_pow h fractionWidth

/-- The magnitude of a natural number of at most 53 bits. -/
def Magnitude.ofSmallNat (n : Nat) (h : n ≤ 2 ^ 53) : Magnitude where
  units := n * one
  units_lt := mul_one_lt_limit h
  aligned := aligned_mul_one h

namespace Binary64

/-- A natural number of at most 53 bits is a double exactly. -/
theorem ofNat_eq_finite {n : Nat} (h : n ≤ 2 ^ 53) :
    ofNat n = .finite false (.ofSmallNat n h) :=
  nearest_units false (.ofSmallNat n h)

/-- A natural number of at most 53 bits that is not zero is a positive double. -/
theorem isPositive_ofNat {n : Nat} (h : n ≤ 2 ^ 53) (h0 : n ≠ 0) :
    (ofNat n).isPositive = true := by
  rw [isPositive_eq_true_iff]
  refine Or.inr ⟨.ofSmallNat n h, ofNat_eq_finite h, ?_⟩
  have hone : Magnitude.one ≠ 0 := Nat.ne_of_gt Magnitude.one_pos
  exact Nat.mul_ne_zero h0 hone

/-! ## Sums with zero -/

theorem isFinite_iff {x : Binary64} :
    x.isFinite = true ↔ ∃ negative magnitude, x = .finite negative magnitude := by
  cases x <;> simp [isFinite]

/-- The double that a signed number of units stands for when the units are those
of a magnitude. -/
theorem ofUnits_signedUnits (zeroNegative negative : Bool) (m : Magnitude) :
    ofUnits zeroNegative (signedUnits negative m) =
      if m.units = 0 then .finite zeroNegative .zero else .finite negative m := by
  by_cases h : m.units = 0
  · rw [if_pos h, ofUnits, if_pos (by cases negative <;> simp [signedUnits, h])]
  · have hne : signedUnits negative m ≠ 0 := by cases negative <;> simp [signedUnits, h]
    have hneg : decide (signedUnits negative m < 0) = negative := by
      cases negative
      · simp [signedUnits]
      · simp [signedUnits]
        omega
    have habs : (signedUnits negative m).natAbs = m.units := by
      cases negative <;> simp [signedUnits]
    rw [if_neg h, ofUnits, if_neg hne, hneg, habs, nearest_units]

/-- Adding the positive zero changes at most the sign of a zero. -/
theorem finite_add_zero (negative : Bool) (m : Magnitude) :
    (.finite negative m : Binary64) + zero =
      if m.units = 0 then zero else .finite negative m := by
  have hsum : (.finite negative m : Binary64) + zero =
      ofUnits (negative && false) (signedUnits negative m + signedUnits false .zero) := rfl
  have hzero : signedUnits false .zero = 0 := rfl
  rw [hsum, hzero, Int.add_zero, Bool.and_false, ofUnits_signedUnits]
  rfl

/-- Adding the positive zero to a finite double gives a finite double. -/
theorem isFinite_add_zero {x : Binary64} (h : x.isFinite = true) : (x + zero).isFinite = true := by
  obtain ⟨negative, m, rfl⟩ := isFinite_iff.mp h
  rw [finite_add_zero]
  split <;> rfl

end Binary64

end PrintJob

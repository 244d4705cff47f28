/-
# Rounding to the nearest double

Every operation computes its exact result as a quotient of two whole numbers of
units and rounds it once. `roundHalfEven` rounds a quotient to a whole number,
`Magnitude.nearest` to a magnitude: it drops the bits below the leading 53 and
rounds what is left, or answers nothing when the result leaves the finite range.
-/
import PrintJob.Binary64.Basic

namespace PrintJob

/-! ## Whole numbers -/

/-- The whole number nearest to `num / den`; a half goes to the even neighbour. -/
def roundHalfEven (num den : Nat) : Nat :=
  let floor := num / den
  let rest := 2 * (num % den)
  if rest < den then floor
  else if den < rest then floor + 1
  else if floor % 2 = 0 then floor
  else floor + 1

theorem le_roundHalfEven (num den : Nat) : num / den ≤ roundHalfEven num den := by
  simp only [roundHalfEven]
  repeat' split
  all_goals omega

theorem roundHalfEven_le (num den : Nat) : roundHalfEven num den ≤ num / den + 1 := by
  simp only [roundHalfEven]
  repeat' split
  all_goals omega

@[simp]
theorem roundHalfEven_one (n : Nat) : roundHalfEven n 1 = n := by
  simp [roundHalfEven, Nat.mod_one]

@[simp]
theorem roundHalfEven_zero {den : Nat} (h : 0 < den) : roundHalfEven 0 den = 0 := by
  simp [roundHalfEven, h]

/-- A multiple of the divisor is rounded to its quotient. -/
theorem roundHalfEven_mul_right (n : Nat) {den : Nat} (h : 0 < den) :
    roundHalfEven (n * den) den = n := by
  simp [roundHalfEven, h]

/-! ## Magnitudes -/

namespace Magnitude

/-- A number of at most 53 bits, moved up by `s` bits, is aligned. -/
theorem aligned_mul_two_pow {m : Nat} (h : m ≤ 2 ^ 53) (s : Nat) :
    2 ^ ((m * 2 ^ s).log2 - 52) ∣ m * 2 ^ s := by
  rcases Nat.eq_zero_or_pos m with rfl | hm
  · simp
  rcases Nat.lt_or_eq_of_le h with hlt | rfl
  -- with fewer than 54 bits, the excess is covered by the shift
  · have hne : m * 2 ^ s ≠ 0 := Nat.mul_ne_zero (by omega) (Nat.ne_of_gt (Nat.two_pow_pos s))
    have hlog : (m * 2 ^ s).log2 < 53 + s := by
      rw [Nat.log2_lt hne, Nat.pow_add]
      exact Nat.mul_lt_mul_of_pos_right hlt (Nat.two_pow_pos s)
    exact Nat.dvd_trans (Nat.pow_dvd_pow 2 (by omega)) (Nat.dvd_mul_left _ _)
  -- a power of two is divisible by every smaller one
  · rw [← Nat.pow_add, Nat.log2_two_pow]
    exact Nat.pow_dvd_pow 2 (by omega)

/-- The number of low bits that a quotient has too many. -/
def excessBits (num den : Nat) : Nat := (num / den).log2 - 52

theorem div_lt_two_pow_excessBits (num den : Nat) :
    num / den < 2 ^ (53 + excessBits num den) :=
  Nat.lt_of_lt_of_le Nat.lt_log2_self
    (Nat.pow_le_pow_right (by decide) (by unfold excessBits; omega))

/-- The leading bits of `num / den`, rounded. -/
def significand (num den : Nat) : Nat :=
  roundHalfEven num (den * 2 ^ excessBits num den)

theorem significand_le (num den : Nat) : significand num den ≤ 2 ^ 53 := by
  refine Nat.le_trans (roundHalfEven_le _ _) ?_
  rw [← Nat.div_div_eq_div_mul]
  have h := div_lt_two_pow_excessBits num den
  rw [Nat.pow_add] at h
  exact Nat.div_lt_of_lt_mul (by rw [Nat.mul_comm]; exact h)

/-- The magnitude nearest to `num / den` units, if it is in the finite range. -/
def nearest (num den : Nat) : Option Magnitude :=
  let units := significand num den * 2 ^ excessBits num den
  if h : units < limit then
    some ⟨units, h, aligned_mul_two_pow (significand_le num den) _⟩
  else
    none

theorem units_of_nearest {num den : Nat} {m : Magnitude} (h : nearest num den = some m) :
    m.units = significand num den * 2 ^ excessBits num den := by
  simp only [nearest] at h
  split at h
  · cases h; rfl
  · cases h

theorem nearest_isSome_iff {num den : Nat} :
    (nearest num den).isSome ↔ significand num den * 2 ^ excessBits num den < limit := by
  simp only [nearest]
  split <;> simp_all

/-- Nothing rounds to nothing else. -/
@[simp]
theorem nearest_zero {den : Nat} (h : 0 < den) : nearest 0 den = some zero := by
  have hs : significand 0 den = 0 := by
    rw [significand, roundHalfEven_zero]
    exact Nat.mul_pos h (Nat.two_pow_pos _)
  simp [nearest, hs, limit_pos, zero]

/-- A magnitude is its own rounding. -/
theorem nearest_units (m : Magnitude) : nearest m.units 1 = some m := by
  have hs : significand m.units 1 * 2 ^ excessBits m.units 1 = m.units := by
    obtain ⟨k, hk⟩ := m.aligned
    simp only [significand, excessBits, Nat.one_mul, Nat.div_one]
    -- the excess bits are all zero, so rounding drops nothing
    have hround : roundHalfEven m.units (2 ^ (m.units.log2 - 52)) = k := by
      have hcomm : m.units = k * 2 ^ (m.units.log2 - 52) := by rw [Nat.mul_comm]; exact hk
      generalize m.units.log2 - 52 = s at hcomm
      rw [hcomm]
      exact roundHalfEven_mul_right k (Nat.two_pow_pos _)
    rw [hround, Nat.mul_comm]
    exact hk.symm
  simp only [nearest, hs]
  rw [dif_pos m.units_lt]

end Magnitude

/-! ## Doubles -/

namespace Binary64

/-- The double nearest to `num / den` units with the given sign; beyond the
finite range it is the infinity of that sign. -/
def nearest (negative : Bool) (num den : Nat) : Binary64 :=
  match Magnitude.nearest num den with
  | some magnitude => .finite negative magnitude
  | none => .infinite negative

theorem nearest_units (negative : Bool) (m : Magnitude) :
    nearest negative m.units 1 = .finite negative m := by
  unfold nearest
  rw [Magnitude.nearest_units]

/-- The double nearest to a natural number. -/
def ofNat (n : Nat) : Binary64 := nearest false (n * Magnitude.one) 1

instance (n : Nat) : OfNat Binary64 n := ⟨ofNat n⟩

/-- The whole number nearest to a double; a half goes up, and what is negative
or no number counts as zero. The answer never exceeds `most`. -/
def roundToNat (most : Nat) : Binary64 → Nat
  | .finite false m => min ((2 * m.units + Magnitude.one) / (2 * Magnitude.one)) most
  | .infinite false => most
  | _ => 0

theorem roundToNat_le (most : Nat) (x : Binary64) : x.roundToNat most ≤ most := by
  unfold roundToNat
  split
  · exact Nat.min_le_right _ _
  · exact Nat.le_refl _
  · exact Nat.zero_le _

end Binary64

end PrintJob

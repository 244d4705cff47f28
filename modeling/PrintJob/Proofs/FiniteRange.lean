/-
# The end of the finite range

A quotient is rounded to an infinity from the middle on between the largest finite double and the
power of two behind it, for of these two neighbours the power of two is the even one
(`Magnitude.nearest_eq_none_iff`). Counted in ones instead of units, that middle is
`overflowBound`.

A decimal with a number of digits behind its point is the quotient by a power of ten. Of such
decimals the very large and the very small ones are settled by their size alone; they become what
rounding the quotient gives as well (`Decimal.toBinary64_eq_nearest`).
-/
import PrintJob.Decimal.Reading
import PrintJob.Proofs.RoundingOrder

namespace PrintJob

/-! ## Halves that go up -/

/-- An even number is reached from a half below it on. -/
theorem le_roundHalfEven_iff {n : Nat} (hn : n % 2 = 0) (hpos : 0 < n) (num : Nat) {den : Nat}
    (hden : 0 < den) : n ≤ roundHalfEven num den ↔ (2 * n - 1) * den ≤ 2 * num := by
  obtain ⟨k, rfl⟩ : ∃ k, n = k + 1 := ⟨n - 1, by omega⟩
  have hsplit := Nat.div_add_mod num den
  have hrest := Nat.mod_lt num hden
  have hhalf : (2 * (k + 1) - 1) * den = 2 * (den * k) + den := by
    have hodd : 2 * (k + 1) - 1 = 2 * k + 1 := by omega
    rw [hodd, Nat.add_mul, Nat.one_mul, Nat.mul_assoc, Nat.mul_comm k]
  rw [hhalf]
  rcases Nat.lt_trichotomy (num / den) k with hlt | heq | hgt
  · have hround := roundHalfEven_le num den
    have hmul : den * (num / den + 1) ≤ den * k := Nat.mul_le_mul_left den hlt
    rw [Nat.mul_add, Nat.mul_one] at hmul
    omega
  -- the quotient lies between the two neighbours, and its rest decides
  · rw [heq] at hsplit
    simp only [roundHalfEven, heq]
    repeat' split
    all_goals omega
  · have hround := le_roundHalfEven num den
    have hmul : den * (k + 1) ≤ den * (num / den) := Nat.mul_le_mul_left den hgt
    rw [Nat.mul_add, Nat.mul_one] at hmul
    omega

/-! ## Quotients of units -/

/-- The smallest whole number that is rounded to an infinity: the middle between the largest finite
double and `2 ^ 1024`. -/
def overflowBound : Nat := (2 ^ 54 - 1) * 2 ^ 970

namespace Magnitude

/-- Half the distance between the largest finite doubles, in units. -/
@[irreducible]
def halfStep : Nat := 2 ^ (width - 54)

theorem two_pow_mul_halfStep (n : Nat) : 2 ^ n * halfStep = 2 ^ (width - 54 + n) := by
  unfold halfStep
  rw [← Nat.pow_add, Nat.add_comm]

theorem limit_eq : limit = 2 ^ 54 * halfStep := by
  have hwidth : width = width - 54 + 54 := rfl
  unfold limit halfStep
  rw [← Nat.pow_add, Nat.add_comm, ← hwidth]

/-- The bound lies half a step below the limit. -/
theorem overflowBound_mul_one : overflowBound * one = (2 ^ 54 - 1) * halfStep := by
  have hwidth : 970 + fractionWidth = width - 54 := rfl
  unfold overflowBound one halfStep
  rw [Nat.mul_assoc, ← Nat.pow_add, hwidth]

/-- Below the last binade quotients stay below the bound, and their rounding below the limit. -/
theorem below_of_excessBits_lt {num den : Nat} (h : excessBits num den < width - 53) :
    num / den < overflowBound * one ∧
      significand num den * 2 ^ excessBits num den < limit := by
  have hwidth : width = 2098 := rfl
  have hpos : 0 < halfStep := by
    unfold halfStep
    exact Nat.two_pow_pos _
  have hpow : 2 ^ (53 + excessBits num den) ≤ 2 ^ 53 * halfStep := by
    rw [two_pow_mul_halfStep]
    exact Nat.pow_le_pow_right (by decide) (by omega)
  have hdiv := div_lt_two_pow_excessBits num den
  have hround : significand num den * 2 ^ excessBits num den ≤ 2 ^ (53 + excessBits num den) := by
    rw [Nat.pow_add]
    exact Nat.mul_le_mul_right _ (significand_le num den)
  rw [overflowBound_mul_one, limit_eq]
  constructor <;> omega

/-- Behind the last binade quotients are beyond the bound, and their rounding beyond the limit. -/
theorem beyond_of_lt_excessBits {num den : Nat} (h : width - 53 < excessBits num den) :
    overflowBound * one ≤ num / den ∧
      limit ≤ significand num den * 2 ^ excessBits num den := by
  have hwidth : width = 2098 := rfl
  have hpow : 2 ^ 54 * halfStep ≤ 2 ^ (52 + excessBits num den) := by
    rw [two_pow_mul_halfStep]
    exact Nat.pow_le_pow_right (by decide) (by omega)
  have hdiv := two_pow_le_div (Nat.zero_lt_of_lt h)
  have hround : 2 ^ (52 + excessBits num den) ≤
      significand num den * 2 ^ excessBits num den := by
    rw [Nat.pow_add]
    exact Nat.mul_le_mul_right _ (two_pow_le_significand (Nat.zero_lt_of_lt h))
  rw [overflowBound_mul_one, limit_eq]
  constructor <;> omega

/-- In the last binade a quotient is rounded up to the limit from the bound on. -/
theorem limit_le_significand_iff {num den : Nat} (h : excessBits num den = width - 53)
    (hden : 0 < den) :
    limit ≤ significand num den * 2 ^ excessBits num den ↔ overflowBound * one * den ≤ num := by
  have hstep : 2 ^ excessBits num den = 2 * halfStep := by
    have hwidth : width - 54 + 1 = width - 53 := rfl
    have hone := two_pow_mul_halfStep 1
    rw [Nat.pow_one, hwidth] at hone
    rw [h, hone]
  have hpos : 0 < 2 * halfStep := hstep ▸ Nat.two_pow_pos _
  have hlimit : limit = 2 ^ 53 * (2 * halfStep) := by
    have hpow : 2 ^ 54 = 2 ^ 53 * 2 := by decide
    rw [limit_eq, hpow, Nat.mul_assoc]
  have hbound : (2 * 2 ^ 53 - 1) * (den * (2 * halfStep)) = 2 * (overflowBound * one * den) := by
    have hodd : 2 * 2 ^ 53 - 1 = 2 ^ 54 - 1 := by decide
    rw [overflowBound_mul_one, hodd, Nat.mul_left_comm den, Nat.mul_left_comm, Nat.mul_comm den,
      Nat.mul_assoc]
  rw [significand, hstep, hlimit, Nat.mul_le_mul_right_iff hpos,
    le_roundHalfEven_iff (by decide) (by decide) num (Nat.mul_pos hden hpos), hbound]
  exact Nat.mul_le_mul_left_iff Nat.two_pos

/-- **From the bound on, and only then, quotients leave the finite range.** -/
theorem nearest_eq_none_iff (num : Nat) {den : Nat} (hden : 0 < den) :
    nearest num den = none ↔ overflowBound * one * den ≤ num := by
  have hnone : nearest num den = none ↔
      limit ≤ significand num den * 2 ^ excessBits num den := by
    rw [← Nat.not_lt, ← nearest_isSome_iff, Bool.not_eq_true, Option.isSome_eq_false_iff,
      Option.isNone_iff_eq_none]
  rw [hnone]
  -- outside the last binade the number of leading bits decides both sides
  rcases Nat.lt_trichotomy (excessBits num den) (width - 53) with hlow | hlast | hhigh
  · obtain ⟨hdiv, hround⟩ := below_of_excessBits_lt hlow
    rw [Nat.div_lt_iff_lt_mul hden] at hdiv
    exact iff_of_false (Nat.not_le.mpr hround) (Nat.not_le.mpr hdiv)
  · exact limit_le_significand_iff hlast hden
  · obtain ⟨hdiv, hround⟩ := beyond_of_lt_excessBits hhigh
    rw [Nat.le_div_iff_mul_le hden] at hdiv
    exact iff_of_true hround hdiv

/-- Less than half a unit is rounded to nothing. -/
theorem nearest_of_two_mul_lt {num den : Nat} (h : 2 * num < den) :
    nearest num den = some zero := by
  have hdiv : num / den = 0 := Nat.div_eq_of_lt (by omega)
  have hbits : excessBits num den = 0 := by
    unfold excessBits
    rw [hdiv, Nat.log2_zero]
  have hround : significand num den = 0 := by
    have hrest : 2 * (num % den) < den :=
      Nat.lt_of_le_of_lt (Nat.mul_le_mul_left 2 (Nat.mod_le _ _)) h
    rw [significand, hbits, Nat.pow_zero, Nat.mul_one, roundHalfEven, if_pos hrest, hdiv]
  simp [nearest, hround, limit_pos, zero]

end Magnitude

/-! ## Quotients by powers of ten -/

/-- Ten bits are more than three digits. -/
theorem pow_ten_le {c : Nat} (h : c ≠ 0) : 10 ^ (3 * (c.log2 / 10)) ≤ c :=
  calc 10 ^ (3 * (c.log2 / 10)) = (10 ^ 3) ^ (c.log2 / 10) := Nat.pow_mul 10 3 _
    _ ≤ (2 ^ 10) ^ (c.log2 / 10) := Nat.pow_le_pow_left (by decide) _
    _ = 2 ^ (10 * (c.log2 / 10)) := (Nat.pow_mul 2 10 _).symm
    _ ≤ 2 ^ c.log2 := Nat.pow_le_pow_right (by decide) (Nat.mul_div_le _ 10)
    _ ≤ c := Nat.log2_self_le h

/-- Three bits are less than a digit. -/
theorem lt_pow_ten (c : Nat) : c < 10 ^ (c.log2 / 3 + 1) :=
  calc c < 2 ^ (c.log2 + 1) := Nat.lt_log2_self
    _ ≤ 2 ^ (3 * (c.log2 / 3 + 1)) := Nat.pow_le_pow_right (by decide) (by omega)
    _ = (2 ^ 3) ^ (c.log2 / 3 + 1) := Nat.pow_mul 2 3 _
    _ ≤ 10 ^ (c.log2 / 3 + 1) := Nat.pow_le_pow_left (by decide) _

/-- A quotient by a power of ten leaves the finite range from the bound on. -/
theorem Magnitude.nearest_pow_ten_eq_none_iff (c k : Nat) :
    nearest (c * one) (10 ^ k) = none ↔ overflowBound * 10 ^ k ≤ c := by
  rw [nearest_eq_none_iff _ (Nat.pow_pos (by decide)), Nat.mul_right_comm,
    Nat.mul_le_mul_right_iff one_pos]

/-- The first shortcut: decimals of this size are beyond the bound. -/
theorem overflowBound_mul_le {c k : Nat} (hc : c ≠ 0)
    (h : Decimal.exponentLimit < 3 * (c.log2 / 10 : Nat) + -(k : Int)) :
    overflowBound * 10 ^ k ≤ c := by
  have hbound : overflowBound ≤ 10 ^ 400 := by decide +kernel
  have hlimit : Decimal.exponentLimit = 400 := rfl
  calc overflowBound * 10 ^ k ≤ 10 ^ 400 * 10 ^ k := Nat.mul_le_mul_right _ hbound
    _ = 10 ^ (400 + k) := by rw [Nat.pow_add]
    _ ≤ 10 ^ (3 * (c.log2 / 10)) := Nat.pow_le_pow_right (by decide) (by omega)
    _ ≤ c := pow_ten_le hc

/-- The second shortcut: decimals of this size are less than half a unit. -/
theorem two_mul_one_lt {c k : Nat}
    (h : (c.log2 / 3 + 2 : Nat) + -(k : Int) < -Decimal.exponentLimit) :
    2 * (c * Magnitude.one) < 10 ^ k := by
  have hone : 2 * Magnitude.one ≤ 10 ^ 400 := by
    unfold Magnitude.one
    decide +kernel
  have hpos : ∀ n, 0 < 10 ^ n := fun n => Nat.pow_pos (by decide)
  have hlimit : Decimal.exponentLimit = 400 := rfl
  calc 2 * (c * Magnitude.one) = c * (2 * Magnitude.one) := Nat.mul_left_comm _ _ _
    _ ≤ c * 10 ^ 400 := Nat.mul_le_mul_left c hone
    _ < 10 ^ (c.log2 / 3 + 1) * 10 ^ 400 :=
      Nat.mul_lt_mul_of_pos_right (lt_pow_ten c) (hpos 400)
    _ = 10 ^ (c.log2 / 3 + 1 + 400) := by rw [← Nat.pow_add]
    _ ≤ 10 ^ k := Nat.pow_le_pow_right (by decide) (by omega)

/-- **A decimal without an exponent becomes the double nearest to its quotient**, whether or not
its size alone settles it. -/
theorem Decimal.toBinary64_eq_nearest (negative : Bool) (c k : Nat) :
    (⟨c, -(k : Int)⟩ : Decimal).toBinary64 negative =
      .nearest negative (c * Magnitude.one) (10 ^ k) := by
  unfold toBinary64
  split
  case isTrue hzero =>
    have hc : c = 0 := hzero
    rw [hc, Nat.zero_mul, Binary64.nearest, Magnitude.nearest_zero (Nat.pow_pos (by decide))]
  case isFalse hc =>
    split
    case isTrue hlarge =>
      have hnone := (Magnitude.nearest_pow_ten_eq_none_iff c k).mpr (overflowBound_mul_le hc hlarge)
      rw [Binary64.nearest, hnone]
    case isFalse =>
      split
      case isTrue hsmall =>
        have hless : 2 * (c * Magnitude.one) < 10 ^ k := two_mul_one_lt hsmall
        rw [Binary64.nearest, Magnitude.nearest_of_two_mul_lt hless]
      case isFalse =>
        cases k with
        | zero =>
          show Binary64.nearest negative (c * 10 ^ 0 * Magnitude.one) 1 = _
          rw [Nat.pow_zero, Nat.mul_one]
        | succ k => rfl

end PrintJob

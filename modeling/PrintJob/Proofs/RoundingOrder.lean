/-
# Rounding keeps the order

A larger quotient is never rounded to a smaller double (`Binary64.nearest_mono`): if
both lose the same number of low bits, whole numbers are rounded in the same steps;
if the larger one loses more, its 53 leading bits alone are above all that the
smaller one can become.

A double that is its own rounding cannot be rounded past, so adding a double without
a minus sign never makes a finite double smaller (`Binary64.IsPlus.le_add`), and adding
it on both sides keeps the order (`Binary64.IsPlus.add_le_add_right`). Sums, products,
quotients and lengths of doubles without a minus sign have none either.
-/
import PrintJob.Proofs.FiniteDouble

namespace PrintJob

/-! ## Whole numbers -/

/-- Rounding to a whole number keeps the order of quotients by one divisor. -/
theorem roundHalfEven_mono {a b : Nat} (h : a ≤ b) (den : Nat) :
    roundHalfEven a den ≤ roundHalfEven b den := by
  have hfloor : a / den ≤ b / den := Nat.div_le_div_right h
  rcases Nat.lt_or_eq_of_le hfloor with hlt | heq
  -- rounding adds at most the whole step that lies between the two quotients
  · calc roundHalfEven a den ≤ a / den + 1 := roundHalfEven_le a den
      _ ≤ b / den := hlt
      _ ≤ roundHalfEven b den := le_roundHalfEven b den
  · have hrest : a % den ≤ b % den := by
      have ha := Nat.div_add_mod a den
      have hb := Nat.div_add_mod b den
      rw [heq] at ha
      omega
    simp only [roundHalfEven, heq]
    repeat' split
    all_goals omega

/-! ## Leading bits -/

namespace Magnitude

theorem excessBits_mono {a b : Nat} (h : a ≤ b) (den : Nat) :
    excessBits a den ≤ excessBits b den := by
  have hdiv : a / den ≤ b / den := Nat.div_le_div_right h
  have hlog : (a / den).log2 ≤ (b / den).log2 := by
    by_cases h0 : a / den = 0
    · rw [h0, Nat.log2_zero]
      exact Nat.zero_le _
    · have hb : b / den ≠ 0 := fun hb => h0 (Nat.le_zero.mp (hb ▸ hdiv))
      exact (Nat.le_log2 hb).mpr (Nat.le_trans (Nat.log2_self_le h0) hdiv)
  unfold excessBits
  omega

/-- A quotient is at least the power of two that its leading bit stands for. -/
theorem two_pow_le_div {num den : Nat} (h : 0 < excessBits num den) :
    2 ^ (52 + excessBits num den) ≤ num / den := by
  have hlog : (num / den).log2 = 52 + excessBits num den := by
    unfold excessBits at h ⊢
    omega
  have hne : num / den ≠ 0 := by
    intro h0
    rw [h0, Nat.log2_zero] at hlog
    omega
  rw [← hlog]
  exact Nat.log2_self_le hne

/-- A quotient with excess bits has all of its 53 leading bits. -/
theorem two_pow_le_significand {num den : Nat} (h : 0 < excessBits num den) :
    2 ^ 52 ≤ significand num den := by
  have hpow : 2 ^ 52 * 2 ^ excessBits num den ≤ num / den := by
    rw [← Nat.pow_add]
    exact two_pow_le_div h
  calc 2 ^ 52 ≤ num / den / 2 ^ excessBits num den :=
        (Nat.le_div_iff_mul_le (Nat.two_pow_pos _)).mpr hpow
    _ = num / (den * 2 ^ excessBits num den) := Nat.div_div_eq_div_mul _ _ _
    _ ≤ significand num den := le_roundHalfEven _ _

/-- The rounded quotients, excess bits included, have the order of the quotients. -/
theorem significand_mul_mono {a b : Nat} (h : a ≤ b) (den : Nat) :
    significand a den * 2 ^ excessBits a den ≤ significand b den * 2 ^ excessBits b den := by
  rcases Nat.lt_or_eq_of_le (excessBits_mono h den) with hlt | heq
  · calc significand a den * 2 ^ excessBits a den
        ≤ 2 ^ 53 * 2 ^ excessBits a den := Nat.mul_le_mul_right _ (significand_le a den)
      _ = 2 ^ (53 + excessBits a den) := (Nat.pow_add 2 53 _).symm
      _ ≤ 2 ^ (52 + excessBits b den) := Nat.pow_le_pow_right (by decide) (by omega)
      _ = 2 ^ 52 * 2 ^ excessBits b den := Nat.pow_add 2 52 _
      _ ≤ significand b den * 2 ^ excessBits b den :=
        Nat.mul_le_mul_right _ (two_pow_le_significand (by omega))
  · rw [significand, significand, heq]
    exact Nat.mul_le_mul_right _ (roundHalfEven_mono h _)

end Magnitude

/-! ## Doubles -/

namespace Binary64

theorem le_trans {x y z : Binary64} (hxy : x ≤ y) (hyz : y ≤ z) : x ≤ z := by
  obtain ⟨a, b, ha, hb, hab⟩ := le_iff_place.mp hxy
  obtain ⟨b', c, hb', hc, hbc⟩ := le_iff_place.mp hyz
  obtain rfl : b = b' := Option.some.inj (hb.symm.trans hb')
  exact le_iff_place.mpr ⟨a, c, ha, hc, Int.le_trans hab hbc⟩

/-- A finite double is not below itself. -/
theorem le_refl {x : Binary64} (h : x.isFinite = true) : x ≤ x := by
  obtain ⟨negative, m, rfl⟩ := isFinite_iff.mp h
  exact le_iff_place.mpr ⟨_, _, rfl, rfl, Int.le_refl _⟩

/-- What is rounded up to an infinity lies at the end of the finite places. -/
theorem place_nearest (num den : Nat) :
    (nearest false num den).place =
      some (min (Magnitude.significand num den * 2 ^ Magnitude.excessBits num den)
        Magnitude.limit : Nat) := by
  unfold nearest
  cases h : Magnitude.nearest num den with
  | some m =>
    have hunits := Magnitude.units_of_nearest h
    have hlt := m.units_lt
    rw [← hunits, Nat.min_eq_left (Nat.le_of_lt hlt)]
    rfl
  | none =>
    have hle : ¬ Magnitude.significand num den * 2 ^ Magnitude.excessBits num den <
        Magnitude.limit := by
      rw [← Magnitude.nearest_isSome_iff, h]
      exact Bool.false_ne_true
    rw [Nat.min_eq_right (Nat.le_of_not_lt hle)]
    rfl

/-- **Rounding keeps the order.** -/
theorem nearest_mono {a b : Nat} (h : a ≤ b) (den : Nat) :
    nearest false a den ≤ nearest false b den := by
  have hmono := Magnitude.significand_mul_mono h den
  refine le_iff_place.mpr ⟨_, _, place_nearest a den, place_nearest b den, ?_⟩
  omega

/-! ## Doubles without a minus sign -/

theorem isNegative_nearest (negative : Bool) (num den : Nat) :
    (nearest negative num den).isNegative = negative := by
  unfold nearest
  split <;> rfl

/-- A length never has a minus sign. -/
theorem isNegative_hypot (x y : Binary64) : (x.hypot y).isNegative = false := by
  unfold hypot
  split
  · rfl
  · rfl
  · rfl
  · rfl
  · exact isNegative_nearest false _ 4

theorem isNegative_mul {x y : Binary64} (hx : x.isNegative = false) (hy : y.isNegative = false) :
    (x * y).isNegative = false := by
  rw [mul_def]
  cases x with
  | nan => rfl
  | infinite s =>
    obtain rfl : s = false := hx
    cases y with
    | nan => rfl
    | infinite t =>
      obtain rfl : t = false := hy
      rfl
    | finite t b =>
      obtain rfl : t = false := hy
      show (if b.units = 0 then nan else infinite false).isNegative = false
      split <;> rfl
  | finite s a =>
    obtain rfl : s = false := hx
    cases y with
    | nan => rfl
    | infinite t =>
      obtain rfl : t = false := hy
      show (if a.units = 0 then nan else infinite false).isNegative = false
      split <;> rfl
    | finite t b =>
      obtain rfl : t = false := hy
      exact isNegative_nearest false _ _

theorem isNegative_div {x y : Binary64} (hx : x.isNegative = false) (hy : y.isNegative = false) :
    (x / y).isNegative = false := by
  rw [div_def]
  cases x with
  | nan => rfl
  | infinite s =>
    obtain rfl : s = false := hx
    cases y with
    | nan => rfl
    | infinite t => rfl
    | finite t b =>
      obtain rfl : t = false := hy
      rfl
  | finite s a =>
    obtain rfl : s = false := hx
    cases y with
    | nan => rfl
    | infinite t =>
      obtain rfl : t = false := hy
      rfl
    | finite t b =>
      obtain rfl : t = false := hy
      show (if b.units = 0 then if a.units = 0 then nan else infinite false
        else nearest false (a.units * Magnitude.one) b.units).isNegative = false
      split
      · split <;> rfl
      · exact isNegative_nearest false _ _

/-- A finite double without a minus sign, hence at or above zero. -/
def IsPlus (x : Binary64) : Prop := ∃ m, x = .finite false m

theorem isPlus_iff {x : Binary64} : x.IsPlus ↔ x.isFinite = true ∧ x.isNegative = false := by
  cases x with
  | finite negative m => simp [IsPlus, isFinite, isNegative]
  | infinite negative => simp [IsPlus, isFinite]
  | nan => simp [IsPlus, isFinite]

theorem isPlus_zero : zero.IsPlus := ⟨.zero, rfl⟩

theorem IsPlus.isFinite {x : Binary64} (h : x.IsPlus) : x.isFinite = true := (isPlus_iff.mp h).1

theorem IsPlus.zero_le {x : Binary64} (h : x.IsPlus) : zero ≤ x := by
  obtain ⟨m, rfl⟩ := h
  refine le_iff_place.mpr ⟨0, m.units, place_zero, rfl, ?_⟩
  omega

/-- Without minus signs a sum is the sum of the units, rounded. -/
theorem plus_add_plus (a b : Magnitude) :
    (.finite false a : Binary64) + .finite false b = nearest false (a.units + b.units) 1 := by
  show ofUnits false ((a.units : Int) + b.units) = _
  unfold ofUnits
  by_cases h : a.units + b.units = 0
  · rw [if_pos (by omega), h, nearest, Magnitude.nearest_zero (by decide)]
  · have hsign : decide ((a.units : Int) + b.units < 0) = false := by
      rw [decide_eq_false_iff_not]
      omega
    have habs : ((a.units : Int) + b.units).natAbs = a.units + b.units := by omega
    rw [if_neg (by omega), hsign, habs]

/-- **Adding a double without a minus sign makes nothing smaller**, as long as the sum
is finite; the sum has no minus sign either. -/
theorem IsPlus.le_add {x y : Binary64} (hx : x.IsPlus) (hy : y.isNegative = false)
    (hsum : (x + y).isFinite = true) : x ≤ x + y ∧ (x + y).IsPlus := by
  obtain ⟨a, rfl⟩ := hx
  cases y with
  | nan => cases hsum
  | infinite t => cases hsum
  | finite t b =>
    obtain rfl : t = false := hy
    rw [plus_add_plus] at hsum ⊢
    constructor
    -- the left summand is its own rounding
    · have hmono := nearest_mono (Nat.le_add_right a.units b.units) 1
      rw [nearest_units] at hmono
      exact hmono
    · exact isPlus_iff.mpr ⟨hsum, isNegative_nearest false _ 1⟩

/-- Without minus signs the order is that of the units. -/
theorem plus_le_plus_iff {a b : Magnitude} :
    (.finite false a : Binary64) ≤ .finite false b ↔ a.units ≤ b.units := by
  have hplace : ∀ m : Magnitude, (finite false m).place = some (m.units : Int) := fun _ => rfl
  rw [le_iff_place, hplace, hplace]
  simp

/-- What lies below a finite double and has no minus sign is finite. -/
theorem isFinite_of_le {x y : Binary64} (hx : x.isNegative = false) (hxy : x ≤ y)
    (hy : y.isFinite = true) : x.isFinite = true := by
  obtain ⟨t, b, rfl⟩ := isFinite_iff.mp hy
  obtain ⟨i, j, hi, hj, hij⟩ := le_iff_place.mp hxy
  cases x with
  | finite s a => rfl
  | nan => cases hi
  | infinite s =>
    -- plus infinity has its place behind all finite ones
    obtain rfl : s = false := hx
    have hlt := b.units_lt
    cases hi
    cases hj
    cases t <;> simp [signedUnits] at hij <;> omega

/-- **The same double without a minus sign can be added on both sides**, as long as the larger
sum is finite; the smaller one is then finite as well. -/
theorem IsPlus.add_le_add_right {x y z : Binary64} (hx : x.IsPlus) (hy : y.IsPlus) (hxy : x ≤ y)
    (hz : z.isNegative = false) (hsum : (y + z).isFinite = true) :
    x + z ≤ y + z ∧ (x + z).IsPlus := by
  obtain ⟨a, rfl⟩ := hx
  obtain ⟨b, rfl⟩ := hy
  cases z with
  | nan => cases hsum
  | infinite t => cases hsum
  | finite t c =>
    obtain rfl : t = false := hz
    rw [plus_add_plus] at hsum
    rw [plus_add_plus, plus_add_plus]
    have hmono := nearest_mono (Nat.add_le_add_right (plus_le_plus_iff.mp hxy) c.units) 1
    have hsign := isNegative_nearest false (a.units + c.units) 1
    exact ⟨hmono, isPlus_iff.mpr ⟨isFinite_of_le hsign hmono hsum, hsign⟩⟩

/-- Without minus signs rounding to a whole number keeps the order. -/
theorem IsPlus.roundToNat_mono {x y : Binary64} (hx : x.IsPlus) (hy : y.IsPlus) (hxy : x ≤ y)
    (most : Nat) : x.roundToNat most ≤ y.roundToNat most := by
  obtain ⟨a, rfl⟩ := hx
  obtain ⟨b, rfl⟩ := hy
  have hunits := plus_le_plus_iff.mp hxy
  have hdiv : (2 * a.units + Magnitude.one) / (2 * Magnitude.one) ≤
      (2 * b.units + Magnitude.one) / (2 * Magnitude.one) :=
    Nat.div_le_div_right (by omega)
  show min _ most ≤ min _ most
  omega

/-- A positive double has no minus sign. -/
theorem isNegative_of_isPositive {x : Binary64} (h : x.isPositive = true) :
    x.isNegative = false := by
  rcases isPositive_eq_true_iff.mp h with rfl | ⟨m, rfl, -⟩
  · rfl
  · rfl

end Binary64

end PrintJob

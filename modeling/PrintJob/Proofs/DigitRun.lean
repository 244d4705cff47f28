/-
# The number that a run of digits denotes

Each digit counts by its place from the end, so zeros in front change nothing, and
a run that begins with another digit denotes at least a power of ten.
-/
import Mathlib.Tactic.Ring
import PrintJob.Decimal.Digits
import PrintJob.Proofs.CharacterRun

namespace PrintJob

theorem foldl_digits (n : Nat) (cs : List Char) :
    cs.foldl (fun n c => 10 * n + digitValue c) n = n * 10 ^ cs.length + ofDigits cs := by
  induction cs generalizing n with
  | nil => simp
  | cons c cs ih =>
    have hrest : ofDigits (c :: cs) = (10 * 0 + digitValue c) * 10 ^ cs.length + ofDigits cs := ih _
    rw [List.foldl_cons, ih, hrest, List.length_cons, Nat.pow_succ]
    ring

/-- The first digit counts by the number of digits behind it. -/
theorem ofDigits_cons (c : Char) (cs : List Char) :
    ofDigits (c :: cs) = digitValue c * 10 ^ cs.length + ofDigits cs := by
  have h : ofDigits (c :: cs) = (10 * 0 + digitValue c) * 10 ^ cs.length + ofDigits cs :=
    foldl_digits _ cs
  rw [h, Nat.mul_zero, Nat.zero_add]

/-- Zeros in front do not change a number. -/
theorem ofDigits_dropWhile_zero (cs : List Char) :
    ofDigits (cs.dropWhile (· == '0')) = ofDigits cs := by
  induction cs with
  | nil => rfl
  | cons c cs ih =>
    by_cases h : c = '0'
    · have hzero : digitValue '0' = 0 := rfl
      rw [h, List.dropWhile_cons_of_pos rfl, ih, ofDigits_cons, hzero, Nat.zero_mul, Nat.zero_add]
    · rw [List.dropWhile_cons_of_neg (by simpa using h)]

theorem toNat_eq_of_isDigit {c : Char} (h : c.isDigit = true) :
    c.toNat = '0'.toNat + digitValue c := by
  simp only [Char.isDigit, Bool.and_eq_true, decide_eq_true_eq, UInt32.le_iff_toNat_le,
    ge_iff_le] at h
  have hc : '0'.toNat ≤ c.toNat := h.1
  unfold digitValue
  omega

/-- A digit is known by its value. -/
theorem digit_inj {c d : Char} (hc : c.isDigit = true) (hd : d.isDigit = true)
    (h : digitValue c = digitValue d) : c = d := by
  rw [← Char.toNat_inj, toNat_eq_of_isDigit hc, toNat_eq_of_isDigit hd, h]

/-- Without a zero in front a number is at least the power of ten of its length. -/
theorem pow_length_le_ofDigits {c : Char} (h : digitValue c ≠ 0) (cs : List Char) :
    10 ^ cs.length ≤ ofDigits (c :: cs) := by
  have hmul : 10 ^ cs.length ≤ digitValue c * 10 ^ cs.length :=
    Nat.le_mul_of_pos_left _ (Nat.pos_of_ne_zero h)
  rw [ofDigits_cons]
  omega

/-- Without a zero in front, zero and one have a single digit. -/
theorem eq_nil_of_ofDigits_le_one {c : Char} {cs : List Char} (h : digitValue c ≠ 0)
    (hle : ofDigits (c :: cs) ≤ 1) : cs = [] := by
  have hpow := pow_length_le_ofDigits h cs
  cases cs with
  | nil => rfl
  | cons d cs =>
    have hten : 10 ^ 1 ≤ 10 ^ (d :: cs).length :=
      Nat.pow_le_pow_right (by decide) (Nat.succ_pos cs.length)
    omega

/-- The runs of digits that denote zero or one. -/
theorem ofDigits_le_one_iff {cs : List Char} (h : ∀ c ∈ cs, c.isDigit = true) :
    ofDigits cs ≤ 1 ↔ cs.dropWhile (· == '0') = [] ∨ cs.dropWhile (· == '0') = ['1'] := by
  have hdigits : ∀ c ∈ cs.dropWhile (· == '0'), c.isDigit = true := fun c hc =>
    h c ((List.dropWhile_suffix _).subset hc)
  have hstop := stopsRun_dropWhile (· == '0') cs
  rw [← ofDigits_dropWhile_zero]
  cases hcode : cs.dropWhile (· == '0') with
  | nil => simp
  | cons c rest =>
    rw [hcode] at hdigits hstop
    have hc := hdigits c List.mem_cons_self
    have hne : digitValue c ≠ 0 := fun h0 => by
      have hzero := digit_inj hc (d := '0') rfl h0
      rw [hzero] at hstop
      exact absurd (stopsRun_cons.mp hstop) (by decide)
    constructor
    · intro hle
      obtain rfl := eq_nil_of_ofDigits_le_one hne hle
      have hone : digitValue c = 1 := by
        rw [ofDigits_cons, List.length_nil, Nat.pow_zero, Nat.mul_one] at hle
        omega
      rw [digit_inj hc (d := '1') rfl hone]
      exact Or.inr rfl
    · rintro (hnil | hone)
      · cases hnil
      · obtain ⟨rfl, rfl⟩ := List.cons.inj hone
        decide

end PrintJob

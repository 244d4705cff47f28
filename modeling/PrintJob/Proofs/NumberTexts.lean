/-
# Numbers as texts in JSON

Every finite double and every natural number is written as a text that JSON has for a
number: no zero stands in front of other digits, a point has digits on both sides, and an
exponent is whole. For doubles this rests on the coefficient of the shortest decimal, which
is zero only for the zeros, and these are written apart.
-/
import Mathlib.Data.List.Basic
import PrintJob.Json.Reader
import PrintJob.Proofs.DigitRun

namespace PrintJob

/-! ## Digits without a zero in front -/

/-- A number that is not zero is written without a zero in front. -/
theorem head?_digits_ne_zero {n : Nat} (h : n ≠ 0) : (digits n).head? ≠ some '0' := by
  fun_induction digits n with
  | case1 n hn =>
    intro hzero
    have hdigit : digitChar n = '0' := by simpa using hzero
    have hvalue : digitValue (digitChar n) = digitValue '0' := congrArg digitValue hdigit
    rw [digitValue_digitChar hn] at hvalue
    exact h hvalue
  | case2 n hn ih =>
    -- the first digit is that of `n / 10`, which is not zero either
    rw [List.head?_append_of_ne_nil _ (digits_ne_nil (n / 10))]
    exact ih (by omega)

/-- The length of a number that is not zero tells its size from below. -/
theorem pow_digitCount_le {n : Nat} (h : n ≠ 0) : 10 ^ (digitCount n - 1) ≤ n := by
  have hvalue := ofDigits_digits n
  have hhead := head?_digits_ne_zero h
  have hdigit : ∀ c ∈ digits n, c.isDigit = true := fun c => isDigit_of_mem_digits
  rw [← length_digits]
  cases hcode : digits n with
  | nil => exact absurd hcode (digits_ne_nil n)
  | cons c rest =>
    rw [hcode] at hvalue hhead hdigit
    have hne : digitValue c ≠ 0 := by
      intro hzero
      exact hhead (congrArg some (digit_inj (hdigit c List.mem_cons_self) rfl hzero))
    calc 10 ^ ((c :: rest).length - 1) = 10 ^ rest.length := rfl
      _ ≤ ofDigits (c :: rest) := pow_length_le_ofDigits hne rest
      _ = n := hvalue

/-! ## The coefficient of the shortest decimal -/

theorem Decimal.coefficient_trim_ne_zero {d : Decimal} (h : d.coefficient ≠ 0) :
    d.trim.coefficient ≠ 0 := by
  fun_induction Decimal.trim d with
  | case1 d hd ih => exact ih (show d.coefficient / 10 ≠ 0 by omega)
  | case2 d hd => exact h

namespace Magnitude

/-- The power of ten by which magnitudes are scaled makes the smallest of them at least one. -/
theorem one_le_decimalShift : one ≤ 10 ^ decimalShift := by
  unfold one
  decide +kernel

theorem scaled_ne_zero {m : Magnitude} (h : m.units ≠ 0) : m.scaled ≠ 0 := by
  have hone : one ≤ m.units * 10 ^ decimalShift :=
    calc one ≤ 10 ^ decimalShift := one_le_decimalShift
      _ ≤ m.units * 10 ^ decimalShift := Nat.le_mul_of_pos_left _ (Nat.pos_of_ne_zero h)
  exact Nat.ne_of_gt (Nat.div_pos hone one_pos)

/-- Cutting off all digits but the first `k` leaves at least one. -/
theorem low_ne_zero {m : Magnitude} (h : m.units ≠ 0) {k : Nat} (hk : 1 ≤ k) :
    m.scaled / 10 ^ (digitCount m.scaled - k) ≠ 0 := by
  have hpow : 10 ^ (digitCount m.scaled - k) ≤ m.scaled :=
    calc 10 ^ (digitCount m.scaled - k) ≤ 10 ^ (digitCount m.scaled - 1) :=
          Nat.pow_le_pow_right (by decide) (by omega)
      _ ≤ m.scaled := pow_digitCount_le (scaled_ne_zero h)
  exact Nat.ne_of_gt (Nat.div_pos hpow (Nat.pow_pos (by decide)))

/-- On a grid one of the two neighbours is taken. -/
theorem coefficient_of_shortestOn {tie : Tie} {m : Magnitude} {k : Nat} {d : Decimal}
    (h : m.shortestOn tie k = some d) :
    d.coefficient = m.scaled / 10 ^ (digitCount m.scaled - k) ∨
      d.coefficient = m.scaled / 10 ^ (digitCount m.scaled - k) + 1 := by
  -- opened without its arguments: with them, checking the step evaluates the powers of ten
  obtain ⟨f, hf⟩ : ∃ f, f = shortestOn := ⟨_, rfl⟩
  rw [← hf] at h
  delta shortestOn at hf
  rw [hf] at h
  beta_reduce at h
  extract_lets step low below above at h
  show d.coefficient = low ∨ d.coefficient = low + 1
  have hbelow : below.coefficient = low := rfl
  have habove : above.coefficient = low + 1 := rfl
  -- the outcome of the tests does not matter
  generalize below.readsBack m = belowReads, above.readsBack m = aboveReads at h
  generalize compare (2 * m.units * 10 ^ decimalShift) ((2 * low + 1) * 10 ^ step * one) =
    order at h
  clear_value below above low step
  have hneighbour : d = below ∨ d = above := by
    cases belowReads <;> cases aboveReads <;> cases order <;> cases tie <;> grind
  rcases hneighbour with rfl | rfl
  · exact Or.inl hbelow
  · exact Or.inr habove

/-- Only the zeros have a shortest decimal with the coefficient zero. -/
theorem coefficient_shortest_ne_zero {m : Magnitude} (h : m.units ≠ 0) (tie : Tie) :
    (m.shortest tie).coefficient ≠ 0 := by
  unfold shortest
  rw [if_neg h]
  apply Decimal.coefficient_trim_ne_zero
  cases hfound : (List.range' 1 17).findSome? (m.shortestOn tie) with
  | none => exact scaled_ne_zero h
  | some d =>
    -- found on the grid of some number of digits, of which there is at least one
    obtain ⟨k, hmem, hk⟩ := List.exists_of_findSome?_eq_some hfound
    have hlow := low_ne_zero h (List.mem_range'_1.mp hmem).1
    rw [Option.getD_some]
    rcases coefficient_of_shortestOn hk with hcoefficient | hcoefficient
    · rw [hcoefficient]
      exact hlow
    · rw [hcoefficient]
      exact Nat.succ_ne_zero _

end Magnitude

namespace Json

/-! ## The grammar of numbers -/

/-- Digits without a zero in front, as coefficients have them. -/
structure IsCoefficient (ds : List Char) : Prop where
  isDigit : ∀ c ∈ ds, c.isDigit = true
  ne_nil : ds ≠ []
  head_ne : ds.head? ≠ some '0'

theorem isCoefficient_digits {n : Nat} (h : n ≠ 0) : IsCoefficient (digits n) where
  isDigit _ := isDigit_of_mem_digits
  ne_nil := digits_ne_nil n
  head_ne := head?_digits_ne_zero h

/-- A coefficient stays one when digits are put behind it. -/
theorem IsCoefficient.append {ds tail : List Char} (h : IsCoefficient ds)
    (htail : ∀ c ∈ tail, c.isDigit = true) : IsCoefficient (ds ++ tail) where
  isDigit c hc := (List.mem_append.mp hc).elim (h.isDigit c) (htail c)
  ne_nil := List.append_ne_nil_of_left_ne_nil h.ne_nil tail
  head_ne := by
    rw [List.head?_append_of_ne_nil _ h.ne_nil]
    exact h.head_ne

/-- The first digits of a coefficient form one. -/
theorem IsCoefficient.take {ds : List Char} (h : IsCoefficient ds) {n : Nat} (hn : n ≠ 0) :
    IsCoefficient (ds.take n) where
  isDigit c hc := h.isDigit c (List.mem_of_mem_take hc)
  ne_nil := by
    intro hnil
    rcases List.take_eq_nil_iff.mp hnil with hzero | hnil
    · exact hn hzero
    · exact h.ne_nil hnil
  head_ne := by
    rw [List.head?_take, if_neg hn]
    exact h.head_ne

theorem IsCoefficient.isWhole {ds : List Char} (h : IsCoefficient ds) : isWhole ds = true := by
  have hnil := h.ne_nil
  have hhead := h.head_ne
  simp [Json.isWhole, hnil, hhead]

/-- The digits before the point and what follows them are judged apart. -/
theorem isUnsigned_append {ds tail : List Char} (hds : ∀ c ∈ ds, c.isDigit = true)
    (htail : StopsRun Char.isDigit tail) :
    isUnsigned (ds ++ tail) = (isWhole ds && isScale tail) := by
  unfold isUnsigned
  rw [takeWhile_run hds htail, dropWhile_run hds htail]

/-- A point, digits behind it, and an exponent. -/
theorem isScale_fraction {ds tail : List Char} (hds : ∀ c ∈ ds, c.isDigit = true)
    (hne : ds ≠ []) (htail : StopsRun Char.isDigit tail)
    (hscale : (Decimal.readScale tail).isSome = true) :
    isScale ('.' :: (ds ++ tail)) = true := by
  show (!((ds ++ tail).takeWhile Char.isDigit).isEmpty &&
    (Decimal.readScale ((ds ++ tail).dropWhile Char.isDigit)).isSome) = true
  rw [takeWhile_run hds htail, dropWhile_run hds htail, hscale, Bool.and_true]
  simpa using hne

/-- A whole exponent with its sign. -/
theorem readScale_writeExponent (n : Int) :
    (Decimal.readScale ('e' :: NumberStyle.writeExponent n)).isSome = true := by
  have hall : (digits n.natAbs).all Char.isDigit = true :=
    List.all_eq_true.mpr fun c => isDigit_of_mem_digits
  have hempty : (digits n.natAbs).isEmpty = false := by
    simpa using digits_ne_nil n.natAbs
  show (Decimal.readExponent (NumberStyle.writeExponent n)).isSome = true
  unfold NumberStyle.writeExponent
  split <;> simp [Decimal.readExponent, Decimal.splitSign, hall, hempty]

/-- A text that begins with a minus is not a number without a sign. -/
theorem isUnsigned_minus (cs : List Char) : isUnsigned ('-' :: cs) = false := by
  unfold isUnsigned
  rw [List.takeWhile_cons_of_neg (by decide)]
  rfl

theorem isNumber_of_isUnsigned {cs : List Char} (h : isUnsigned cs = true) :
    isNumber cs = true := by
  unfold isNumber
  split
  · rw [isUnsigned_minus] at h
    cases h
  · exact h

/-- A sign in front of a number without one makes another number. -/
theorem isNumber_signed {cs : List Char} (h : isUnsigned cs = true) (negative : Bool) :
    isNumber (NumberStyle.signed negative cs) = true := by
  cases negative with
  | true => exact h
  | false => exact isNumber_of_isUnsigned h

/-! ## The characters of numbers -/

theorem isNumeric_of_isDigit {c : Char} (h : c.isDigit = true) : isNumeric c = true := by
  simp [isNumeric, h]

theorem isNumeric_of_readExponent {cs : List Char}
    (h : (Decimal.readExponent cs).isSome = true) : ∀ c ∈ cs, isNumeric c = true := by
  have hdigits : ∀ c ∈ (Decimal.splitSign cs).2, isNumeric c = true := by
    unfold Decimal.readExponent at h
    dsimp only at h
    split at h
    · cases h
    · rename_i hall
      simp only [Bool.or_eq_true, Bool.not_eq_true', not_or, Bool.not_eq_false] at hall
      intro c hc
      exact isNumeric_of_isDigit (List.all_eq_true.mp hall.2 c hc)
  unfold Decimal.splitSign at hdigits
  split at hdigits
  · exact List.forall_mem_cons.mpr ⟨rfl, hdigits⟩
  · exact List.forall_mem_cons.mpr ⟨rfl, hdigits⟩
  · exact hdigits

theorem isNumeric_of_readScale {cs : List Char} (h : (Decimal.readScale cs).isSome = true) :
    ∀ c ∈ cs, isNumeric c = true := by
  cases cs with
  | nil =>
    intro c hc
    cases hc
  | cons e rest =>
    change (if e = 'e' ∨ e = 'E' then Decimal.readExponent rest else none).isSome = true at h
    split at h
    · rename_i he
      have hmark : isNumeric e = true := by rcases he with rfl | rfl <;> rfl
      exact List.forall_mem_cons.mpr ⟨hmark, isNumeric_of_readExponent h⟩
    · cases h

/-- The digits in front are part of numbers in any case. -/
theorem isNumeric_of_dropWhile {cs : List Char}
    (h : ∀ c ∈ cs.dropWhile Char.isDigit, isNumeric c = true) : ∀ c ∈ cs, isNumeric c = true := by
  intro c hc
  rw [← List.takeWhile_append_dropWhile (p := Char.isDigit) (l := cs)] at hc
  rcases List.mem_append.mp hc with hdigit | hrest
  · exact isNumeric_of_isDigit (of_mem_takeWhile hdigit)
  · exact h c hrest

theorem isNumeric_of_isScale {cs : List Char} (h : isScale cs = true) :
    ∀ c ∈ cs, isNumeric c = true := by
  unfold isScale at h
  split at h
  · have hscale := ((Bool.and_eq_true _ _).mp h).2
    exact List.forall_mem_cons.mpr ⟨rfl, isNumeric_of_dropWhile (isNumeric_of_readScale hscale)⟩
  · exact isNumeric_of_readScale h

theorem isNumeric_of_isUnsigned {cs : List Char} (h : isUnsigned cs = true) :
    ∀ c ∈ cs, isNumeric c = true := by
  have hscale := ((Bool.and_eq_true _ _).mp h).2
  exact isNumeric_of_dropWhile (isNumeric_of_isScale hscale)

/-- Numbers consist of characters that are part of numbers. -/
theorem isNumeric_of_isNumber {cs : List Char} (h : isNumber cs = true) :
    ∀ c ∈ cs, isNumeric c = true := by
  unfold isNumber at h
  split at h
  · exact List.forall_mem_cons.mpr ⟨rfl, isNumeric_of_isUnsigned h⟩
  · exact isNumeric_of_isUnsigned h

/-! ## What is written -/

theorem isUnsigned_digits (n : Nat) : isUnsigned (digits n) = true := by
  by_cases h : n = 0
  · rw [h]
    decide +kernel
  · have hcoefficient := isCoefficient_digits h
    rw [← List.append_nil (digits n), isUnsigned_append hcoefficient.isDigit stopsRun_nil,
      hcoefficient.isWhole]
    rfl

/-- Natural numbers are written as numbers. -/
theorem isNumber_digits (n : Nat) : isNumber (digits n) = true :=
  isNumber_of_isUnsigned (isUnsigned_digits n)

/-- A coefficient with the point somewhere before, after or between its digits. -/
theorem isUnsigned_writePositional {ds : List Char} (h : IsCoefficient ds) (point : Int) :
    isUnsigned (NumberStyle.data.writePositional ds point) = true := by
  have hpoint : ∀ cs : List Char, StopsRun Char.isDigit ('.' :: cs) := fun cs =>
    stopsRun_cons.mpr rfl
  have hzeros : ∀ n, ∀ c ∈ List.replicate n '0', c.isDigit = true := by
    intro n c hc
    rw [List.eq_of_mem_replicate hc]
    rfl
  unfold NumberStyle.writePositional
  split
  · -- the point stands before all digits
    have hfraction : ∀ c ∈ List.replicate (-point).toNat '0' ++ ds, c.isDigit = true := fun c hc =>
      (List.mem_append.mp hc).elim (hzeros _ c) (h.isDigit c)
    have hscale := isScale_fraction hfraction (List.append_ne_nil_of_right_ne_nil _ h.ne_nil)
      stopsRun_nil rfl
    rw [List.append_nil] at hscale
    rw [List.append_assoc]
    show isUnsigned (['0'] ++ '.' :: (List.replicate (-point).toNat '0' ++ ds)) = true
    rw [isUnsigned_append (by simp) (hpoint _), hscale]
    rfl
  · split
    · -- after all digits
      have hwhole := h.append (hzeros (point.toNat - ds.length))
      show isUnsigned (ds ++ List.replicate (point.toNat - ds.length) '0' ++ '.' :: ['0']) = true
      rw [isUnsigned_append hwhole.isDigit (hpoint _), hwhole.isWhole]
      rfl
    · -- between two of them
      have hwhole : IsCoefficient (ds.take point.toNat) := h.take (by omega)
      have hfraction : ∀ c ∈ ds.drop point.toNat, c.isDigit = true := fun c hc =>
        h.isDigit c (List.mem_of_mem_drop hc)
      have hne : ds.drop point.toNat ≠ [] := by
        intro hnil
        have := List.drop_eq_nil_iff.mp hnil
        omega
      have hscale := isScale_fraction hfraction hne stopsRun_nil rfl
      rw [List.append_nil] at hscale
      rw [isUnsigned_append hwhole.isDigit (hpoint _), hwhole.isWhole, hscale]
      rfl

/-- A coefficient with one digit before the point and an exponent. -/
theorem isUnsigned_writeScientific {ds : List Char} (h : IsCoefficient ds) (point : Int) :
    isUnsigned (NumberStyle.writeScientific ds point) = true := by
  have hmark : ∀ cs : List Char, StopsRun Char.isDigit ('e' :: cs) := fun cs =>
    stopsRun_cons.mpr rfl
  have hexponent := readScale_writeExponent (point - 1)
  cases ds with
  | nil => exact absurd rfl h.ne_nil
  | cons d rest =>
    have hfirst : IsCoefficient [d] := h.take Nat.one_ne_zero
    cases rest with
    | nil =>
      show isUnsigned ([d] ++ 'e' :: NumberStyle.writeExponent (point - 1)) = true
      rw [isUnsigned_append hfirst.isDigit (hmark _), hfirst.isWhole, Bool.true_and]
      exact hexponent
    | cons e rest =>
      have hrest : ∀ c ∈ e :: rest, c.isDigit = true := fun c hc =>
        h.isDigit c (List.mem_cons_of_mem d hc)
      have hpoint : ∀ cs : List Char, StopsRun Char.isDigit ('.' :: cs) := fun cs =>
        stopsRun_cons.mpr rfl
      have hscale := isScale_fraction hrest (List.cons_ne_nil e rest) (hmark _) hexponent
      show isUnsigned
        ([d] ++ '.' :: ((e :: rest) ++ 'e' :: NumberStyle.writeExponent (point - 1))) = true
      rw [isUnsigned_append hfirst.isDigit (hpoint _), hfirst.isWhole, hscale]
      rfl

theorem isUnsigned_writeMagnitude (m : Magnitude) :
    isUnsigned (NumberStyle.data.writeMagnitude m) = true := by
  unfold NumberStyle.writeMagnitude
  dsimp only
  split
  · decide +kernel
  · rename_i h
    have hcoefficient := isCoefficient_digits (m.coefficient_shortest_ne_zero h .toEven)
    split
    · exact isUnsigned_writePositional hcoefficient _
    · exact isUnsigned_writeScientific hcoefficient _

/-- Finite doubles are written as numbers. -/
theorem isNumber_write {x : Binary64} (h : x.isFinite = true) :
    isNumber (NumberStyle.data.write x) = true := by
  cases x with
  | finite negative m => exact isNumber_signed (isUnsigned_writeMagnitude m) negative
  | infinite negative => cases h
  | nan => cases h

end Json

end PrintJob

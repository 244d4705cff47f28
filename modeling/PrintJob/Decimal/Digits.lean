/-
# Decimal digits

Natural numbers written with the digits `0` to `9`, most significant first.

* `ofDigits` reads a run of digits, leading zeros allowed.
* `digits` writes a number without leading zeros.
* `ofDigits_digits`: reading what was written gives the number back.
-/
import PrintJob.Power

namespace PrintJob

/-! ## Single digits -/

/-- The value of a digit; meaningful on digits only. -/
def digitValue (c : Char) : Nat := c.toNat - '0'.toNat

/-- The digit with a value below ten. -/
def digitChar (d : Nat) : Char := Char.ofNat ('0'.toNat + d)

theorem digitValue_digitChar {d : Nat} (h : d < 10) : digitValue (digitChar d) = d := by
  have : ∀ d < 10, digitValue (digitChar d) = d := by decide
  exact this d h

theorem isDigit_digitChar {d : Nat} (h : d < 10) : (digitChar d).isDigit = true := by
  have : ∀ d < 10, (digitChar d).isDigit = true := by decide
  exact this d h

theorem digitValue_lt {c : Char} (h : c.isDigit = true) : digitValue c < 10 := by
  simp only [Char.isDigit, Bool.and_eq_true, decide_eq_true_eq] at h
  have h1 : c.toNat ≤ '9'.toNat := h.2
  unfold digitValue
  have h2 : '9'.toNat = 57 := rfl
  have h3 : '0'.toNat = 48 := rfl
  omega

/-! ## Runs of digits -/

/-- The number that a run of digits denotes; the empty run denotes zero. -/
def ofDigits (cs : List Char) : Nat :=
  cs.foldl (fun n c => 10 * n + digitValue c) 0

/-- The digits of a number; zero is written `0`. -/
def digits (n : Nat) : List Char :=
  if n < 10 then [digitChar n] else digits (n / 10) ++ [digitChar (n % 10)]
termination_by n

@[simp]
theorem ofDigits_nil : ofDigits [] = 0 := rfl

theorem ofDigits_append_singleton (cs : List Char) (c : Char) :
    ofDigits (cs ++ [c]) = 10 * ofDigits cs + digitValue c := by
  simp [ofDigits]

theorem ofDigits_digits (n : Nat) : ofDigits (digits n) = n := by
  fun_induction digits n with
  | case1 n h => simp [ofDigits, digitValue_digitChar h]
  | case2 n h ih =>
    rw [ofDigits_append_singleton, ih, digitValue_digitChar (by omega)]
    omega

theorem isDigit_of_mem_digits {n : Nat} {c : Char} (h : c ∈ digits n) : c.isDigit = true := by
  fun_induction digits n with
  | case1 n hn =>
    rw [List.mem_singleton] at h
    exact h ▸ isDigit_digitChar hn
  | case2 n hn ih =>
    rcases List.mem_append.mp h with h | h
    · exact ih h
    · rw [List.mem_singleton] at h
      exact h ▸ isDigit_digitChar (by omega)

theorem digits_ne_nil (n : Nat) : digits n ≠ [] := by
  rw [digits]
  split <;> simp

/-- The number of digits that a number is written with. -/
def digitCount (n : Nat) : Nat := if n < 10 then 1 else digitCount (n / 10) + 1
termination_by n

theorem length_digits (n : Nat) : (digits n).length = digitCount n := by
  fun_induction digits n with
  | case1 n h => rw [digitCount, if_pos h]; rfl
  | case2 n h ih => rw [digitCount, if_neg h, List.length_append, ih]; rfl

/-- Two digits, the first of them zero for numbers below ten. -/
def twoDigits (n : Nat) : List Char := [digitChar (n / 10 % 10), digitChar (n % 10)]

theorem ofDigits_twoDigits {n : Nat} (h : n < 100) : ofDigits (twoDigits n) = n := by
  simp only [ofDigits, twoDigits, List.foldl_cons, List.foldl_nil]
  rw [digitValue_digitChar (by omega), digitValue_digitChar (by omega)]
  omega

end PrintJob

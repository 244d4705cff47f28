/-
# Whole numbers of 64 bits

Counts of seconds are whole numbers below `2 ^ 64`. Arithmetic on them stays at
the largest one instead of running over.
-/
import PrintJob.Decimal.Digits

namespace PrintJob

/-- The whole number that a run of ASCII digits denotes, if it has 64 bits. -/
def readWhole (cs : List Char) : Option UInt64 :=
  if cs.isEmpty || !cs.all Char.isDigit then none
  else if h : ofDigits cs < 2 ^ 64 then some (UInt64.ofNatLT (ofDigits cs) h)
  else none

/-- A number, or the largest number of 64 bits for all numbers beyond it. -/
def saturate (n : Nat) : UInt64 :=
  UInt64.ofNatLT (min n (2 ^ 64 - 1))
    (Nat.lt_of_le_of_lt (Nat.min_le_right _ _) (by decide))

@[simp]
theorem toNat_saturate (n : Nat) : (saturate n).toNat = min n (2 ^ 64 - 1) := by
  simp [saturate]

/-- A number of 64 bits is within the bound. -/
@[simp]
theorem saturate_toNat (n : UInt64) : saturate n.toNat = n := by
  have hbound := n.toNat_lt
  apply UInt64.toNat_inj.mp
  rw [toNat_saturate]
  omega

end PrintJob

/-
# Double-precision numbers

A finite double is a sign and a *magnitude*: a whole number of the smallest
subnormal `2 ^ (-1074)`. A whole number of units is a magnitude exactly when it
lies below `2 ^ 2098` units and has at most 53 significant bits. Beside the
finite numbers there are two infinities and one value that is no number.

* `Magnitude`: the non-negative finite doubles.
* `Binary64`: all doubles, with their order and the tests for special values.
* `Binary64.place`: where a double lies on the number line, counted in units;
  the order of doubles is the order of their places.
-/
import PrintJob.Power

namespace PrintJob

/-! ## Magnitudes -/

/-- The number of bits that a count of units can have. -/
def Magnitude.width : Nat := 2098

/-- The number of those bits that stand for the fractional part. -/
def Magnitude.fractionWidth : Nat := 1074

/-- Every finite magnitude lies below this many units. -/
@[irreducible]
def Magnitude.limit : Nat := 2 ^ width

/-- The number one, counted in units of the smallest subnormal. -/
@[irreducible]
def Magnitude.one : Nat := 2 ^ fractionWidth

/-- A non-negative finite double, as a number of units of the smallest subnormal. -/
structure Magnitude where
  /-- The value, counted in units of the smallest subnormal. -/
  units : Nat
  units_lt : units < Magnitude.limit
  /-- At most 53 bits are significant: the bits below the leading 53 are zero. -/
  aligned : 2 ^ (units.log2 - 52) ∣ units
deriving DecidableEq

namespace Magnitude

@[ext]
theorem ext {a b : Magnitude} (h : a.units = b.units) : a = b := by
  cases a; cases b; cases h; rfl

theorem limit_pos : 0 < limit := by
  unfold limit
  exact Nat.two_pow_pos width

theorem one_pos : 0 < one := by
  unfold one
  exact Nat.two_pow_pos fractionWidth

/-- The magnitude of both zeros. -/
def zero : Magnitude := ⟨0, limit_pos, ⟨0, rfl⟩⟩

@[simp]
theorem units_zero : zero.units = 0 := rfl

end Magnitude

/-! ## Doubles -/

/-- A double-precision number; which of the many values that are no number it
is does not matter here, so there is one of them. -/
inductive Binary64 where
  | finite (negative : Bool) (magnitude : Magnitude)
  | infinite (negative : Bool)
  | nan
deriving DecidableEq

namespace Binary64

/-- The positive zero. -/
def zero : Binary64 := .finite false .zero

instance : Inhabited Binary64 := ⟨zero⟩

/-- Neither an infinity nor the value that is no number. -/
def isFinite : Binary64 → Bool
  | .finite .. => true
  | _ => false

/-- Whether the sign is a minus, also on a zero. -/
def isNegative : Binary64 → Bool
  | .finite negative _ => negative
  | .infinite negative => negative
  | .nan => false

/-- The finite value as a signed number of units; a minus sign on zero is lost. -/
def signedUnits (negative : Bool) (magnitude : Magnitude) : Int :=
  if negative then -(magnitude.units : Int) else magnitude.units

/-- The place on the number line in units; the infinities lie just outside the
finite places, and the value that is no number has no place. -/
def place : Binary64 → Option Int
  | .finite negative magnitude => some (signedUnits negative magnitude)
  | .infinite true => some (-(Magnitude.limit : Int))
  | .infinite false => some Magnitude.limit
  | .nan => none

/-! ## Order -/

/-- Comparison of places; it fails when one side is no number. -/
def compares (test : Int → Int → Bool) (x y : Binary64) : Bool :=
  match x.place, y.place with
  | some a, some b => test a b
  | _, _ => false

/-- Numeric equality: both zeros are equal, and no number equals nothing. -/
def numEq (x y : Binary64) : Bool := compares (fun a b => decide (a = b)) x y

instance : LT Binary64 := ⟨fun x y => compares (fun a b => decide (a < b)) x y = true⟩

instance : LE Binary64 := ⟨fun x y => compares (fun a b => decide (a ≤ b)) x y = true⟩

instance (x y : Binary64) : Decidable (x < y) :=
  inferInstanceAs (Decidable (_ = true))

instance (x y : Binary64) : Decidable (x ≤ y) :=
  inferInstanceAs (Decidable (_ = true))

/-- Greater than zero, as the number line has it. -/
def isPositive (x : Binary64) : Bool := decide (zero < x)

theorem place_zero : zero.place = some 0 := rfl

theorem lt_iff_place {x y : Binary64} :
    x < y ↔ ∃ a b, x.place = some a ∧ y.place = some b ∧ a < b := by
  show compares _ x y = true ↔ _
  unfold compares
  cases x.place <;> cases y.place <;> simp

theorem le_iff_place {x y : Binary64} :
    x ≤ y ↔ ∃ a b, x.place = some a ∧ y.place = some b ∧ a ≤ b := by
  show compares _ x y = true ↔ _
  unfold compares
  cases x.place <;> cases y.place <;> simp

theorem isPositive_iff {x : Binary64} : x.isPositive = true ↔ zero < x := by
  simp [isPositive]

theorem zero_lt_iff_place {x : Binary64} : zero < x ↔ ∃ b, x.place = some b ∧ 0 < b := by
  simp [lt_iff_place, place_zero]

/-- A positive double is an infinity or has a plus sign and a magnitude that is not zero. -/
theorem isPositive_eq_true_iff {x : Binary64} :
    x.isPositive = true ↔
      x = .infinite false ∨ ∃ m, x = .finite false m ∧ m.units ≠ 0 := by
  have hpos := Magnitude.limit_pos
  rw [isPositive_iff, zero_lt_iff_place]
  cases x with
  | nan => simp [place]
  | infinite negative =>
    cases negative
    · simp [place, hpos]
    · simp [place]
  | finite negative m =>
    cases negative
    · simp only [place, signedUnits, Option.some.injEq, exists_eq_left']
      simp
      omega
    · simp [place, signedUnits]

/-! ## Sign changes -/

/-- Turns the sign round, also that of a zero. -/
protected def neg : Binary64 → Binary64
  | .finite negative magnitude => .finite (!negative) magnitude
  | .infinite negative => .infinite (!negative)
  | .nan => .nan

instance : Neg Binary64 := ⟨Binary64.neg⟩

end Binary64

end PrintJob

/-
# Arithmetic of doubles

Addition, subtraction, multiplication, division and the length of a right
triangle's long side. On finite operands each is its exact result, rounded once;
the exact results are whole numbers of units or quotients of such numbers.
-/
import PrintJob.Binary64.Rounding
import PrintJob.Binary64.SquareRoot

namespace PrintJob

namespace Binary64

/-! ## Sums -/

/-- The double nearest to a signed number of units; the sign of a zero is given
apart, since the number zero has none. -/
def ofUnits (zeroNegative : Bool) (units : Int) : Binary64 :=
  if units = 0 then .finite zeroNegative .zero
  else nearest (decide (units < 0)) units.natAbs 1

/-- Opposite infinities have no sum. A sum that is exactly zero is a negative
zero only if both operands carry a minus sign. -/
protected def add : Binary64 → Binary64 → Binary64
  | .nan, _ => .nan
  | _, .nan => .nan
  | .infinite s, .infinite t => if s = t then .infinite s else .nan
  | .infinite s, .finite .. => .infinite s
  | .finite .., .infinite t => .infinite t
  | .finite s a, .finite t b => ofUnits (s && t) (signedUnits s a + signedUnits t b)

instance : Add Binary64 := ⟨Binary64.add⟩

instance : Sub Binary64 := ⟨fun x y => x + -y⟩

/-! ## Products and quotients -/

/-- Zero times an infinity is no number. -/
protected def mul : Binary64 → Binary64 → Binary64
  | .nan, _ => .nan
  | _, .nan => .nan
  | .infinite s, .infinite t => .infinite (s ^^ t)
  | .infinite s, .finite t b => if b.units = 0 then .nan else .infinite (s ^^ t)
  | .finite s a, .infinite t => if a.units = 0 then .nan else .infinite (s ^^ t)
  | .finite s a, .finite t b => nearest (s ^^ t) (a.units * b.units) Magnitude.one

instance : Mul Binary64 := ⟨Binary64.mul⟩

/-- Zero by zero and infinity by infinity are no numbers; anything else by zero
is an infinity. -/
protected def div : Binary64 → Binary64 → Binary64
  | .nan, _ => .nan
  | _, .nan => .nan
  | .infinite _, .infinite _ => .nan
  | .infinite s, .finite t _ => .infinite (s ^^ t)
  | .finite s _, .infinite t => .finite (s ^^ t) .zero
  | .finite s a, .finite t b =>
    if b.units = 0 then
      if a.units = 0 then .nan else .infinite (s ^^ t)
    else
      nearest (s ^^ t) (a.units * Magnitude.one) b.units

instance : Div Binary64 := ⟨Binary64.div⟩

theorem mul_def (x y : Binary64) : x * y = x.mul y := rfl

theorem div_def (x y : Binary64) : x / y = x.div y := rfl

/-! ## Lengths -/

/-- The double nearest to the square root of `squareUnits` square units. The root
is taken to half a unit, with a quarter added when it is not exact: that is
enough to tell on which side of every rounding boundary the root lies. -/
def nearestSqrt (squareUnits : Nat) : Binary64 :=
  let halves := floorSqrt (4 * squareUnits)
  nearest false (2 * halves + if halves * halves = 4 * squareUnits then 0 else 1) 4

/-- The long side of the right triangle with legs `x` and `y`. No intermediate
result overflows. An infinite leg makes the side infinite, whatever the other. -/
def hypot : Binary64 → Binary64 → Binary64
  | .infinite _, _ => .infinite false
  | _, .infinite _ => .infinite false
  | .nan, _ => .nan
  | _, .nan => .nan
  | .finite _ a, .finite _ b => nearestSqrt (a.units * a.units + b.units * b.units)

end Binary64

end PrintJob

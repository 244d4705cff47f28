/-
# The shortest decimal that reads back

Among the decimals that read back as a given magnitude, those with the fewest
digits are wanted, and of these the one nearest to the magnitude. On the grid of
decimals with `k` significant digits only the two neighbours of the magnitude
can be nearest, so it is enough to try these two for `k = 1, 2, …`; seventeen
digits always suffice. When both neighbours are equally near, the writer of the
number decides which one is taken.
-/
import PrintJob.Decimal.Reading

namespace PrintJob

/-- Which of two equally near decimals is taken. -/
inductive Tie where
  | toEven
  | up
deriving DecidableEq

namespace Decimal

/-- The same number with a coefficient that does not end in zero. -/
def trim (d : Decimal) : Decimal :=
  if d.coefficient ≠ 0 ∧ d.coefficient % 10 = 0 then
    trim ⟨d.coefficient / 10, d.exponent + 1⟩
  else d
termination_by d.coefficient
decreasing_by omega

/-- Whether reading the decimal gives the magnitude. -/
def readsBack (d : Decimal) (m : Magnitude) : Bool :=
  decide (d.toBinary64 false = .finite false m)

end Decimal

namespace Magnitude

/-- Magnitudes are scaled by this power of ten, which makes the smallest of them
a whole number of many digits. -/
def decimalShift : Nat := 400

/-- The scaled magnitude, cut off to a whole number. -/
def scaled (m : Magnitude) : Nat := m.units * 10 ^ decimalShift / one

/-- The better of the two neighbours of `m` among the decimals with `k`
significant digits, if one of them reads back. -/
def shortestOn (tie : Tie) (m : Magnitude) (k : Nat) : Option Decimal :=
  let step := digitCount m.scaled - k
  let low := m.scaled / 10 ^ step
  let below : Decimal := ⟨low, (step : Int) - decimalShift⟩
  let above : Decimal := ⟨low + 1, (step : Int) - decimalShift⟩
  match below.readsBack m, above.readsBack m with
  | false, false => none
  | true, false => some below
  | false, true => some above
  | true, true =>
    -- the nearer one, told by the middle between the two
    match compare (2 * m.units * 10 ^ decimalShift) ((2 * low + 1) * 10 ^ step * one) with
    | .lt => some below
    | .gt => some above
    | .eq =>
      match tie with
      | .up => some above
      | .toEven => some (if low % 2 = 0 then below else above)

/-- The shortest decimal that reads back as the magnitude. -/
def shortest (tie : Tie) (m : Magnitude) : Decimal :=
  if m.units = 0 then ⟨0, 0⟩
  else
    (((List.range' 1 17).findSome? (m.shortestOn tie)).getD
      ⟨m.scaled, -(decimalShift : Int)⟩).trim

end Magnitude

end PrintJob

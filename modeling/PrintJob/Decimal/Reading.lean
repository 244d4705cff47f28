/-
# Reading decimal numbers

A number is written as an optional sign and then either one of the words `inf`,
`infinity` and `nan`, in any mixture of cases, or a decimal: digits with at most
one point among or around them and at least one digit in all, and after them
optionally `e` or `E` and a whole exponent with an optional sign. Nothing else
may stand in the text. The value is rounded to the nearest double.
-/
import PrintJob.Binary64.Arithmetic
import PrintJob.Decimal.Digits

namespace PrintJob

/-! ## Decimals -/

/-- The number `coefficient * 10 ^ exponent`. -/
structure Decimal where
  coefficient : Nat
  exponent : Int
deriving DecidableEq

namespace Decimal

/-- The exponent beyond which every non-zero decimal leaves the range of doubles. -/
def exponentLimit : Int := 400

/-- The double nearest to a decimal with the given sign. Decimals whose size alone
puts them outside the range are settled without computing the power of ten. -/
def toBinary64 (negative : Bool) (d : Decimal) : Binary64 :=
  if d.coefficient = 0 then .finite negative .zero
  else if exponentLimit < 3 * (d.coefficient.log2 / 10 : Nat) + d.exponent then
    .infinite negative
  else if (d.coefficient.log2 / 3 + 2 : Nat) + d.exponent < -exponentLimit then
    .finite negative .zero
  else match d.exponent with
    | .ofNat e => .nearest negative (d.coefficient * 10 ^ e * Magnitude.one) 1
    | .negSucc e => .nearest negative (d.coefficient * Magnitude.one) (10 ^ (e + 1))

/-! ## Parts of the written form -/

/-- Splits off one leading sign; the flag tells whether it is a minus. -/
def splitSign : List Char → Bool × List Char
  | '-' :: rest => (true, rest)
  | '+' :: rest => (false, rest)
  | cs => (false, cs)

/-- A whole exponent, which needs at least one digit. -/
def readExponent (cs : List Char) : Option Int :=
  let (negative, ds) := splitSign cs
  if ds.isEmpty || !ds.all Char.isDigit then none
  else some (if negative then -(ofDigits ds : Int) else ofDigits ds)

/-- The part after the digits: nothing, or a mark and an exponent. -/
def readScale : List Char → Option Int
  | [] => some 0
  | c :: rest => if c = 'e' ∨ c = 'E' then readExponent rest else none

/-- Splits off a point and the digits after it; without a point there are none. -/
def splitFraction : List Char → List Char × List Char
  | '.' :: rest => (rest.takeWhile Char.isDigit, rest.dropWhile Char.isDigit)
  | cs => ([], cs)

/-- An unsigned decimal. -/
def read (cs : List Char) : Option Decimal :=
  let whole := cs.takeWhile Char.isDigit
  let (fraction, rest) := splitFraction (cs.dropWhile Char.isDigit)
  if whole.isEmpty && fraction.isEmpty then none
  else (readScale rest).map fun scale =>
    ⟨ofDigits (whole ++ fraction), scale - fraction.length⟩

end Decimal

/-! ## Doubles -/

namespace Binary64

/-- A special value, by its name in lower case. -/
def ofName (negative : Bool) (name : List Char) : Option Binary64 :=
  if name = "inf".toList ∨ name = "infinity".toList then some (.infinite negative)
  else if name = "nan".toList then some .nan
  else none

/-- The double that a text denotes, if it denotes one. -/
def read (cs : List Char) : Option Binary64 :=
  let (negative, unsigned) := Decimal.splitSign cs
  match Decimal.read unsigned with
  | some d => some (d.toBinary64 negative)
  | none => ofName negative (unsigned.map Char.toLower)

/-- The finite double that a text denotes. -/
def readFinite (cs : List Char) : Option Binary64 := (read cs).filter isFinite

theorem isFinite_of_readFinite {cs : List Char} {x : Binary64} (h : readFinite cs = some x) :
    x.isFinite = true :=
  (Option.filter_eq_some_iff.mp h).2

end Binary64

end PrintJob

/-
# Number texts

A `NumberStyle` says how a double becomes text: which of two equally short
decimals is taken, where positional writing ends and an exponent begins, what
follows a whole number, and the names of the special values.

* `NumberStyle.plain`: never an exponent, and whole numbers without a point.
* `NumberStyle.data`: the form of numbers in data files, where a number with a
  point or an exponent is never mistaken for a whole one.
* `Binary64.oneDecimal`: a fixed form with one digit after the point.
-/
import PrintJob.Decimal.Shortest

namespace PrintJob

/-- How doubles are written. -/
structure NumberStyle where
  /-- Which of two equally near shortest decimals is written. -/
  tie : Tie
  /-- Whether a number whose point stands this many places after its first digit
  is written without an exponent. -/
  positional : Int → Bool
  /-- What follows the digits of a whole number. -/
  wholeMark : List Char
  infinity : List Char
  nan : List Char

namespace NumberStyle

/-- Never an exponent; a whole number has no point. -/
def plain : NumberStyle where
  tie := .up
  positional _ := true
  wholeMark := []
  infinity := "inf".toList
  nan := "NaN".toList

/-- Positional from `0.00001` to sixteen places before the point, otherwise with
an exponent; a positional whole number ends in `.0`. -/
def data : NumberStyle where
  tie := .toEven
  positional point := decide (-5 < point ∧ point ≤ 16)
  wholeMark := ".0".toList
  infinity := "inf".toList
  nan := "nan".toList

/-- Digits with the point `point` places after the first of them. -/
def writePositional (style : NumberStyle) (ds : List Char) (point : Int) : List Char :=
  if point ≤ 0 then
    "0.".toList ++ List.replicate (-point).toNat '0' ++ ds
  else if ds.length ≤ point.toNat then
    ds ++ List.replicate (point.toNat - ds.length) '0' ++ style.wholeMark
  else
    ds.take point.toNat ++ '.' :: ds.drop point.toNat

/-- A whole number with its sign written out in both cases. -/
def writeExponent (n : Int) : List Char :=
  (if n < 0 then '-' else '+') :: digits n.natAbs

/-- One digit before the point, the others after it, then the exponent. -/
def writeScientific (ds : List Char) (point : Int) : List Char :=
  (match ds with
    | [] => []
    | [d] => [d]
    | d :: rest => d :: '.' :: rest) ++ 'e' :: writeExponent (point - 1)

/-- A magnitude in this style. -/
def writeMagnitude (style : NumberStyle) (m : Magnitude) : List Char :=
  let d := m.shortest style.tie
  let ds := digits d.coefficient
  let point := ds.length + d.exponent
  if m.units = 0 then '0' :: style.wholeMark
  else if style.positional point then style.writePositional ds point
  else writeScientific ds point

/-- A minus sign in front of a text if wanted. -/
def signed (negative : Bool) (cs : List Char) : List Char :=
  if negative then '-' :: cs else cs

/-- A double in this style. -/
def write (style : NumberStyle) : Binary64 → List Char
  | .finite negative m => signed negative (style.writeMagnitude m)
  | .infinite negative => signed negative style.infinity
  | .nan => style.nan

end NumberStyle

namespace Binary64

/-- The exact value rounded to one digit after the point, a half to the even side. -/
def oneDecimal : Binary64 → List Char
  | .finite negative m =>
    let tenths := roundHalfEven (10 * m.units) Magnitude.one
    NumberStyle.signed negative (digits (tenths / 10) ++ ['.', digitChar (tenths % 10)])
  | .infinite negative => NumberStyle.signed negative NumberStyle.plain.infinity
  | .nan => NumberStyle.plain.nan

end Binary64

end PrintJob

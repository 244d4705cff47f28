/-
# TOML numbers, dates and booleans

The values that are written without quotes. Each is recognised from its whole text:
an integer in one of four bases, a float, a boolean, or a date with or without a
time, of which only the form matters here. The form of a number is checked at once,
its value only where it is used: a text that passes the first check and not the
second is `Scalar.unusable`.
-/
import PrintJob.Decimal.Reading
import PrintJob.Toml.Table
import PrintJob.Toml.Text

namespace PrintJob

namespace Toml

/-! ## Digits in groups -/

/-- The digits without the underscores between them; an underscore stands between two
digits and nowhere else. -/
def ungroup (isBaseDigit : Char → Bool) : List Char → Option (List Char)
  | [] => none
  | [c] => if isBaseDigit c then some [c] else none
  | c :: '_' :: rest =>
    if isBaseDigit c then (ungroup isBaseDigit rest).map (c :: ·) else none
  | c :: d :: rest =>
    if isBaseDigit c then (ungroup isBaseDigit (d :: rest)).map (c :: ·) else none

/-- Whether a number has a sign. -/
def isSigned (cs : List Char) : Bool := cs.head?.any fun c => c == '-' || c == '+'

/-- The decimal digits of a whole number whose sign is taken off. No needless zero
stands in front. Directly after a sign an underscore is let pass, and with it zeros. -/
def ungroupWhole (signed : Bool) (cs : List Char) : Option (List Char) :=
  match signed, cs with
  | true, '_' :: rest => ungroup Char.isDigit rest
  | _, _ =>
    match ungroup Char.isDigit cs with
    | some ('0' :: _ :: _) => none
    | ds => ds

/-! ## Integers -/

/-- The number that digits of a base denote. -/
def ofBase (base : Nat) (ds : List Char) : Nat :=
  ds.foldl (fun n c => base * n + (hexValue c).getD 0) 0

/-- Whether a character is a digit of a base up to sixteen. -/
def isDigitOf (base : Nat) (c : Char) : Bool := (hexValue c).any (· < base)

/-- An integer: decimal with an optional sign, or in base 16, 8 or 2 without a sign. -/
def readInteger : List Char → Option Int
  | '0' :: 'x' :: rest => (ungroup (isDigitOf 16) rest).map fun ds => ofBase 16 ds
  | '0' :: 'o' :: rest => (ungroup (isDigitOf 8) rest).map fun ds => ofBase 8 ds
  | '0' :: 'b' :: rest => (ungroup (isDigitOf 2) rest).map fun ds => ofBase 2 ds
  | cs =>
    let (negative, unsigned) := Decimal.splitSign cs
    (ungroupWhole (isSigned cs) unsigned).map fun ds =>
      if negative then -(ofDigits ds : Int) else ofDigits ds

/-! ## Integers without a value -/

/-- Whether a character is a hexadecimal digit. -/
def isHexDigit (c : Char) : Bool := isDigitOf 16 c

/-- Whether the groups after an underscore look like digits. Only the characters next to
underscores are looked at, and letters of hexadecimal digits pass. -/
def looksGrouped : List (List Char) → Bool
  | [] => false
  | [last] => last.head?.any isHexDigit
  | group :: rest =>
    group.head?.any isHexDigit && group.getLast?.any isHexDigit && looksGrouped rest

/-- Whether a character makes a number with underscores something else than an integer. -/
def isFloatMark (c : Char) : Bool := c == '.' || c == 'e' || c == 'E' || c == ' '

/-- Whether a text passes for a decimal integer with underscores. -/
def passesForInteger (cs : List Char) : Bool :=
  let unsigned := (Decimal.splitSign cs).2
  match unsigned.splitOn '_' with
  | first :: groups =>
    first.all Char.isDigit && first.head? != some '0' && (isSigned cs || !first.isEmpty) &&
      looksGrouped groups && !unsigned.any isFloatMark
  | [] => false

/-- Whether a text is the mark of a base without any digits. -/
def isBaseMark (cs : List Char) : Bool :=
  cs == ['0', 'x'] || cs == ['0', 'o'] || cs == ['0', 'b']

/-! ## Floats -/

/-- Whether a character can stand in a group of decimal digits. -/
def isGroupChar (c : Char) : Bool := c.isDigit || c == '_'

/-- The digits after a point, if there is one, and the rest. -/
def readFraction : List Char → Option (List Char × List Char)
  | '.' :: rest =>
    (ungroup Char.isDigit (rest.takeWhile isGroupChar)).map fun ds =>
      (ds, rest.dropWhile isGroupChar)
  | cs => some ([], cs)

/-- An exponent, which may have zeros in front. -/
def readScale (cs : List Char) : Option Int :=
  let (negative, unsigned) := Decimal.splitSign cs
  (ungroup Char.isDigit unsigned).map fun ds =>
    if negative then -(ofDigits ds : Int) else ofDigits ds

/-- The exponent after its mark; without a mark it is zero. -/
def readExponent : List Char → Option Int
  | [] => some 0
  | c :: rest => if c = 'e' ∨ c = 'E' then readScale rest else none

/-- A decimal whose sign is taken off; the caller has seen that it is no integer. -/
def readDecimal (signed : Bool) (cs : List Char) : Option Decimal := do
  let whole ← ungroupWhole signed (cs.takeWhile isGroupChar)
  let (fraction, rest) ← readFraction (cs.dropWhile isGroupChar)
  let scale ← readExponent rest
  return ⟨ofDigits (whole ++ fraction), scale - fraction.length⟩

/-- The value of a decimal, unless it is beyond the range of doubles. -/
def Scalar.ofDecimal (negative : Bool) (d : Decimal) : Scalar :=
  let x := d.toBinary64 negative
  if x.isFinite then .float x else .unusable

/-- A float. Infinities and the value that is no number have names. -/
def readFloat (cs : List Char) : Option Scalar :=
  let (negative, unsigned) := Decimal.splitSign cs
  if unsigned = "inf".toList then some (.float (.infinite negative))
  else if unsigned = "nan".toList then some (.float .nan)
  else (readDecimal (isSigned cs) unsigned).map (Scalar.ofDecimal negative)

/-! ## Dates and times -/

/-- A number of exactly `count` digits in the range from `low` to `high`. -/
def readField (count low high : Nat) (cs : List Char) : Option (Nat × List Char) :=
  let ds := cs.take count
  if ds.length = count ∧ ds.all Char.isDigit ∧ low ≤ ofDigits ds ∧ ofDigits ds ≤ high then
    some (ofDigits ds, cs.drop count)
  else none

/-- The text after an expected character. -/
def expect (c : Char) : List Char → Option (List Char)
  | d :: rest => if d = c then some rest else none
  | [] => none

/-- The number of days of a month. -/
def daysIn (year month : Nat) : Nat :=
  if month = 2 then
    if year % 4 = 0 ∧ (year % 100 ≠ 0 ∨ year % 400 = 0) then 29 else 28
  else if month = 4 ∨ month = 6 ∨ month = 9 ∨ month = 11 then 30
  else 31

/-- The text after a date. -/
def skipDate (cs : List Char) : Option (List Char) := do
  let (year, rest) ← readField 4 0 9999 cs
  let rest ← expect '-' rest
  let (month, rest) ← readField 2 1 12 rest
  let rest ← expect '-' rest
  let (_, rest) ← readField 2 1 (daysIn year month) rest
  return rest

/-- The text after the seconds of a time and their fraction, if there are any. -/
def skipSeconds : List Char → Option (List Char)
  | ':' :: rest => do
    let (_, rest) ← readField 2 0 60 rest
    match rest with
    | '.' :: digits =>
      if (digits.takeWhile Char.isDigit).isEmpty then none
      else return digits.dropWhile Char.isDigit
    | _ => return rest
  | cs => some cs

/-- The text after hours and minutes. -/
def skipClock (cs : List Char) : Option (List Char) := do
  let (_, rest) ← readField 2 0 23 cs
  let rest ← expect ':' rest
  let (_, rest) ← readField 2 0 59 rest
  return rest

/-- The text after a time. -/
def skipTime (cs : List Char) : Option (List Char) := (skipClock cs).bind skipSeconds

/-- Whether a text is an offset from universal time, or empty. -/
def isOffset : List Char → Bool
  | [] => true
  | ['Z'] => true
  | ['z'] => true
  | '+' :: rest => skipClock rest == some []
  | '-' :: rest => skipClock rest == some []
  | _ => false

/-- Whether a text is a date, a time, or a date and a time with or without an offset. -/
def isDateTime (cs : List Char) : Bool :=
  match skipDate cs with
  | some [] => true
  | some (c :: rest) =>
    (c == 'T' || c == 't' || c == ' ') && (skipTime rest).any isOffset
  | none => skipTime cs == some []

/-! ## Values without quotes -/

/-- The value that a whole text denotes. -/
def Scalar.ofText (cs : List Char) : Option Scalar :=
  if cs = "true".toList then some (.boolean true)
  else if cs = "false".toList then some (.boolean false)
  else match readInteger cs with
    | some n => some (.integer n)
    | none =>
      match readFloat cs with
      | some value => some value
      | none =>
        if isDateTime cs then some .dateTime
        else if passesForInteger cs || isBaseMark cs then some .unusable
        else none

/-- The text of a value without quotes and the rest. Blanks belong to it only if it goes
on behind them, as a date goes on with a time; `afterBlank` tells that they stand
directly in front. -/
def splitScalar (afterBlank : Bool) : List Char → List Char × List Char
  | [] => ([], [])
  | c :: cs =>
    if isSpace c then
      match splitScalar true cs with
      | ([], _) => ([], c :: cs)
      | (text, rest) => (c :: text, rest)
    else if isBareValueChar c && !(afterBlank && isQuote c) then
      let (text, rest) := splitScalar false cs
      (c :: text, rest)
    else ([], c :: cs)

/-- A value without quotes. -/
def readScalar (cs : List Char) : Option (Scalar × List Char) :=
  let (text, rest) := splitScalar false cs
  (Scalar.ofText text).map fun value => (value, rest)

end Toml

end PrintJob

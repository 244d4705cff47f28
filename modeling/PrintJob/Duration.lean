/-
# Durations

A duration is written as counts of days, hours, minutes and seconds, each with
the letter of its unit, in this order: `1d 2h 3m 4s`. Every part may be absent,
and blanks between the parts are optional.

* `Duration.parse`: the seconds of the first duration in a text.
* `Duration.format`: seconds as hours, minutes and seconds.
-/
import PrintJob.Decimal.Whole
import PrintJob.Text.Blank
import PrintJob.Text.DecimalDigit

namespace PrintJob

/-- A unit of time that a duration counts. -/
inductive TimeUnit where
  | day
  | hour
  | minute
  | second
deriving DecidableEq

namespace TimeUnit

/-- The letter written after a count of this unit. -/
def letter : TimeUnit → Char
  | day => 'd'
  | hour => 'h'
  | minute => 'm'
  | second => 's'

/-- The length of the unit. -/
def inSeconds : TimeUnit → Nat
  | day => 86400
  | hour => 3600
  | minute => 60
  | second => 1

/-- All units, the longest first. -/
def all : List TimeUnit := [day, hour, minute, second]

end TimeUnit

namespace Duration

/-! ## Reading -/

/-- A count of a unit, as written. -/
structure Part where
  unit : TimeUnit
  count : List Char
deriving DecidableEq

/-- One part at the start of a text, and what follows it: a run of decimal digits
and the letter of the unit. -/
def readPart (unit : TimeUnit) (cs : List Char) : Option (Part × List Char) :=
  let count := cs.takeWhile isDecimalDigit
  match count, cs.dropWhile isDecimalDigit with
  | _ :: _, c :: rest => if c = unit.letter then some (⟨unit, count⟩, rest) else none
  | _, _ => none

/-- The parts at the start of a text, of some units in order; each unit may be left
out. Blanks after a part belong to it. -/
def readParts : List TimeUnit → List Char → List Part
  | [], _ => []
  | unit :: units, cs =>
    match readPart unit cs with
    | some (part, rest) => part :: readParts units (trimStart rest)
    | none => readParts units cs

/-- The parts of the first duration in a text. -/
def firstParts : List Char → Option (List Part)
  | [] => none
  | c :: cs =>
    match readParts TimeUnit.all (c :: cs) with
    | [] => firstParts cs
    | part :: parts => some (part :: parts)

/-- The seconds that parts add up to, unbounded; every count has to be a whole number
of 64 bits in ASCII digits. -/
def total : List Part → Option Nat
  | [] => some 0
  | part :: parts => do
    let count ← readWhole part.count
    let rest ← total parts
    return count.toNat * part.unit.inSeconds + rest

/-- The seconds of the first duration in a text; the largest number of 64 bits stands
for longer durations. -/
def parse (cs : List Char) : Option UInt64 :=
  ((firstParts cs).bind total).map saturate

/-! ## Writing -/

/-- Seconds as hours, minutes and seconds. Leading parts that are zero are left out,
and every part but the first has two digits. -/
def format (duration : UInt64) : List Char :=
  let seconds := duration.toNat
  let hours := seconds / 3600
  let minutes := seconds % 3600 / 60
  if hours > 0 then
    digits hours ++ 'h' :: ' ' :: twoDigits minutes ++ 'm' :: ' ' :: twoDigits (seconds % 60) ++
      ['s']
  else if minutes > 0 then
    digits minutes ++ 'm' :: ' ' :: twoDigits (seconds % 60) ++ ['s']
  else
    digits seconds ++ ['s']

end Duration

end PrintJob

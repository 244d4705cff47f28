/-
# What a slicer declares in a comment

Slicers write facts about the print into comments. There is one function for each
convention; it looks at one line and gives the value that the line declares.
-/
import PrintJob.Decimal.Reading
import PrintJob.Duration
import PrintJob.Text.Search

namespace PrintJob

/-! ## Numbers inside text -/

/-- Whether a number begins at the start of a text: with a digit, or with a point
before a digit. -/
def startsNumber : List Char → Bool
  | '.' :: c :: _ => c.isDigit
  | c :: _ => c.isDigit
  | [] => false

/-- The text from the first place on at which a number begins. -/
def fromNumber : List Char → Option (List Char)
  | [] => none
  | c :: cs => if startsNumber (c :: cs) then some (c :: cs) else fromNumber cs

/-- The digits at the start of a text, with at most one point among or around them. -/
def numberToken (cs : List Char) : List Char :=
  cs.takeWhile Char.isDigit ++
    match cs.dropWhile Char.isDigit with
    | '.' :: rest => '.' :: rest.takeWhile Char.isDigit
    | _ => []

/-- The first number anywhere in a text. -/
def firstNumber (cs : List Char) : Option Binary64 :=
  (fromNumber cs).bind fun rest => Binary64.read (numberToken rest)

/-! ## Conventions -/

namespace Declaration

/-- Marks the flavor; case matters. -/
def flavorMarker : List Char := ";FLAVOR:".toList

/-- Marks the print time in seconds; case matters. -/
def timeMarker : List Char := ";TIME:".toList

/-- Marks the amount of filament, in any case. -/
def filamentMarker : List Char := ";filament used:".toList

/-- Marks the layer height, in any case. -/
def layerHeightMarker : List Char := ";layer height:".toList

/-- Marks the print time as a duration, in any case. -/
def printingTimeMarker : List Char := "; estimated printing time".toList

/-- The dialect that the slicer wrote: all that follows the first colon of the line. -/
def flavor (line : List Char) : Option String :=
  (afterFirst flavorMarker line).bind fun _ =>
    (afterFirstChar ':' line).bind fun rest =>
      let value := trim rest
      if value.isEmpty then none else some (String.ofList value)

/-- The print time in whole seconds, with digits directly after the marker and blanks. -/
def time (line : List Char) : Option UInt64 :=
  (afterFirst timeMarker line).bind fun rest =>
    readWhole ((trimStart rest).takeWhile Char.isDigit)

/-- The print time as a duration, anywhere after the marker. -/
def printingTime (line : List Char) : Option UInt64 :=
  (afterCaseless printingTimeMarker line).bind Duration.parse

/-- The amount of filament, in whatever unit the slicer uses. -/
def filamentUsed (line : List Char) : Option Binary64 :=
  (afterCaseless filamentMarker line).bind firstNumber

/-- The layer height in millimetres. -/
def layerHeight (line : List Char) : Option Binary64 :=
  (afterCaseless layerHeightMarker line).bind firstNumber

end Declaration

end PrintJob

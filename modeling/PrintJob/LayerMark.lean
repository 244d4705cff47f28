/-
# Layer marks

Slicers mark where a layer begins with comments of two styles: a *tag*, a comment
that begins with the word *layer* and a colon or a blank, and a *mention*, the word
*layer* on its own after a blank. A line can have a mark of each style, and all
marks are counted; the count is not a number of distinct layers.
-/
import PrintJob.Text.Blank
import PrintJob.Text.Lines
import PrintJob.Text.Search
import PrintJob.Text.WordCharacter

namespace PrintJob

/-- What follows the word *layer* at the start of a text, in any mixture of cases. -/
def afterLayer (cs : List Char) : Option (List Char) :=
  if (cs.take 5).map Char.toLower = "layer".toList then some (cs.drop 5) else none

/-- Whether the comment begins with *layer* and a colon or a blank. -/
def startsWithTag (comment : List Char) : Bool :=
  match afterLayer comment with
  | some (c :: _) => c == ':' || isBlank c
  | _ => false

/-- Whether *layer* stands at the start of a text, and no longer word. -/
def startsWithLayerWord (cs : List Char) : Bool :=
  match afterLayer cs with
  | some [] => true
  | some (c :: _) => !isWordCharacter c
  | none => false

/-- Whether *layer* stands somewhere in a text on its own, after a blank. -/
def mentionsLayer : List Char → Bool
  | [] => false
  | c :: cs => (isBlank c && startsWithLayerWord cs) || mentionsLayer cs

/-! ## Lines -/

/-- The text after the first semicolon of a line. -/
def commentOf (line : List Char) : Option (List Char) := afterFirstChar ';' line

/-- Whether a line has a layer tag. -/
def hasLayerTag (line : List Char) : Bool := (commentOf line).any startsWithTag

/-- Whether a line mentions a layer. -/
def hasLayerMention (line : List Char) : Bool := (commentOf line).any mentionsLayer

/-- The number of layer marks on a line. -/
def layerMarks (line : List Char) : Nat :=
  (if hasLayerTag line then 1 else 0) + if hasLayerMention line then 1 else 0

/-- The number of layer marks in a text. -/
def countLayers (text : List Char) : Nat :=
  (lines text).foldr (fun line count => layerMarks line + count) 0

end PrintJob

/-
# Metadata of a print

The facts that the comments of a text declare, collected in one pass. Where a fact
is declared more than once, the last declaration holds; a malformed one changes
nothing.
-/
import PrintJob.Declaration
import PrintJob.Text.Lines

namespace PrintJob

/-- The declared facts; a fact that was not found is absent. -/
structure Metadata where
  flavor : Option String := none
  /-- Print time in seconds. -/
  estimatedTime : Option UInt64 := none
  /-- Length or mass of the filament, in the unit of the slicer. -/
  filamentUsed : Option Binary64 := none
  /-- Layer height in millimetres. -/
  layerHeight : Option Binary64 := none
deriving DecidableEq

namespace Metadata

/-- No fact is known. -/
def empty : Metadata := {}

instance : Inhabited Metadata := ⟨empty⟩

/-- The facts that one line declares. Of two print times the one written as a
duration holds. -/
def ofLine (line : List Char) : Metadata where
  flavor := Declaration.flavor line
  estimatedTime := (Declaration.printingTime line).or (Declaration.time line)
  filamentUsed := Declaration.filamentUsed line
  layerHeight := Declaration.layerHeight line

/-- Newer facts replace older ones. -/
def update (old new : Metadata) : Metadata where
  flavor := new.flavor.or old.flavor
  estimatedTime := new.estimatedTime.or old.estimatedTime
  filamentUsed := new.filamentUsed.or old.filamentUsed
  layerHeight := new.layerHeight.or old.layerHeight

/-- Takes in one more line. A line without a semicolon has no comment and is not
looked at further. -/
def scanLine (metadata : Metadata) (line : List Char) : Metadata :=
  if line.contains ';' then metadata.update (ofLine line) else metadata

/-- The facts that a list of lines declares. -/
def ofLines (ls : List (List Char)) : Metadata := ls.foldl scanLine empty

/-- The facts that a text declares. -/
def extract (text : List Char) : Metadata := ofLines (lines text)

/-- Whether no fact is known. -/
def isEmpty (metadata : Metadata) : Bool := metadata == empty

/-! ## Updates -/

@[simp]
theorem update_empty (metadata : Metadata) : metadata.update empty = metadata := by
  simp [update, empty]

@[simp]
theorem empty_update (metadata : Metadata) : empty.update metadata = metadata := by
  simp [update, empty]

theorem update_assoc (a b c : Metadata) : (a.update b).update c = a.update (b.update c) := by
  simp [update, Option.or_assoc]

end Metadata

end PrintJob

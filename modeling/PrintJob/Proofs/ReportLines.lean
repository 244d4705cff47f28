/-
# The lines that a report depends on

A report is made of three passes over the lines of a text: the declared facts and the
layer marks come from lines with a semicolon, the simulation from lines that are
linear moves. Each pass is blind to all other lines, so it finds in its own lines what
it finds in the whole text (`Metadata.extract_eq_ofLines`, `countLayers_eq_foldr`,
`movesOf_eq_filterMap`). How the two kinds of lines are mixed does not matter then,
nor what else the text holds (`Document.report_eq_of_lines`).
-/
import PrintJob.Document
import PrintJob.Proofs.EndOfRun
import PrintJob.Proofs.LastDeclaration

namespace PrintJob

/-- The lines of a text with a semicolon, in order. -/
def commentLines (text : List Char) : List (List Char) :=
  (lines text).filter fun line => line.contains ';'

/-! ## Declared facts -/

/-- The facts of a text are those of its lines with a semicolon. -/
theorem Metadata.extract_eq_ofLines (text : List Char) :
    extract text = ofLines (commentLines text) := by
  rw [ofLines, commentLines, List.foldl_filter, extract, ofLines]
  congr 1
  funext known line
  rw [scanLine]
  by_cases h : line.contains ';' = true
  · rw [if_pos h, if_pos h]
  · rw [if_neg h, if_neg h]

/-! ## Layer marks -/

/-- A line without a semicolon has no layer mark. -/
theorem layerMarks_eq_zero {line : List Char} (h : ';' ∉ line) : layerMarks line = 0 := by
  rw [layerMarks, hasLayerTag, hasLayerMention, commentOf, afterFirstChar_eq_none h]
  rfl

/-- The layer marks of a text are those on its lines with a semicolon. -/
theorem countLayers_eq_foldr (text : List Char) :
    countLayers text =
      (commentLines text).foldr (fun line count => layerMarks line + count) 0 := by
  rw [countLayers, commentLines, List.foldr_filter]
  congr 1
  funext line count
  by_cases h : line.contains ';' = true
  · rw [if_pos h]
  · have hmem : ';' ∉ line := fun hmem => h (List.contains_iff_mem.mpr hmem)
    rw [if_neg h, layerMarks_eq_zero hmem, Nat.zero_add]

/-! ## Reports -/

namespace Document

/-- A report takes nothing from a document but its facts, its layer marks and its
simulation. -/
theorem report_congr {a b : Document} (hmetadata : a.metadata = b.metadata)
    (hlayers : a.layerCount = b.layerCount) (hsimulation : a.simulation = b.simulation) :
    a.report = b.report := by
  have hdeclared : a.declaredTime = b.declaredTime := by
    rw [declaredTime, declaredTime, hmetadata]
  rw [report, report, hdeclared, hmetadata, hlayers, hsimulation]

/-- **A report depends on the lines with a semicolon and on the linear moves only.**
Texts in which the two subsequences are the same have the same report, however the
lines are mixed and whatever lines are between them. -/
theorem report_eq_of_lines (settings : EstimatorSettings) {a b : List Char}
    (hcomments : commentLines a = commentLines b) (hmoves : moveLines a = moveLines b) :
    report ⟨a, settings⟩ = report ⟨b, settings⟩ := by
  have hsame : movesOf a = movesOf b := by
    rw [movesOf_eq_filterMap, movesOf_eq_filterMap, hmoves]
  refine report_congr ?_ ?_ (simulate_congr settings hsame)
  · show Metadata.extract a = Metadata.extract b
    rw [Metadata.extract_eq_ofLines, Metadata.extract_eq_ofLines, hcomments]
  · show countLayers a = countLayers b
    rw [countLayers_eq_foldr, countLayers_eq_foldr, hcomments]

/-- A move moved in front of comments, with other commands and an empty line put in
between; the first line is of both kinds. -/
theorem report_of_mixed_lines :
    let settings : EstimatorSettings := ⟨600, .skipMove⟩
    let a := "G1 X5 F600 ;LAYER:0\n;FLAVOR:Marlin\nG28\n; layer change\nG0 Y3".toList
    let b := "M104 S200\nG1 X5 F600 ;LAYER:0\nG0 Y3\r\n\n;FLAVOR:Marlin\n; layer change\n".toList
    commentLines a = commentLines b ∧ moveLines a = moveLines b ∧
      report ⟨a, settings⟩ = report ⟨b, settings⟩ := by
  intro settings a b
  have hcomments : commentLines a = commentLines b := by decide +kernel
  have hmoves : moveLines a = moveLines b := by decide +kernel
  exact ⟨hcomments, hmoves, report_eq_of_lines settings hcomments hmoves⟩

end Document

end PrintJob

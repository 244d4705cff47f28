/-
# Texts put together at a line boundary

A text *ends a line* if it is empty or its last character is a newline. What follows such
a text cannot change its lines any more, and the lines of both together are the lines of
the one and then those of the other (`lines_append`). The three passes over a text each
have a law of their own for this: layer marks add up, of the declared facts the newer ones
replace the older ones, and a run goes on from the state that it has come to
(`analysis_append`).
-/
import PrintJob.Document
import PrintJob.Proofs.LastDeclaration
import PrintJob.Proofs.TextRows

namespace PrintJob

/-- The text is empty or ends with a newline. -/
def EndsLine (text : List Char) : Prop := text = [] ∨ text.getLast? = some '\n'

instance (text : List Char) : Decidable (EndsLine text) :=
  inferInstanceAs (Decidable (_ ∨ _))

/-! ## Lines -/

/-- A text without a newline ends a line only if there is nothing in it. -/
theorem EndsLine.eq_nil_of_row {row : List Char} (h : EndsLine row) (hrow : '\n' ∉ row) :
    row = [] := by
  rcases h with hnil | hlast
  · exact hnil
  · exfalso
    exact hrow (List.mem_of_getLast? hlast)

/-- What follows the first newline of such a text ends a line too. -/
theorem EndsLine.of_row_newline {row rest : List Char} (h : EndsLine (row ++ '\n' :: rest)) :
    EndsLine rest := by
  rcases h with hnil | hlast
  · simp at hnil
  · rw [List.getLast?_append, List.getLast?_cons] at hlast
    cases hrest : rest.getLast? with
    | none => exact Or.inl (List.getLast?_eq_none_iff.mp hrest)
    | some c =>
      rw [hrest, Option.getD_some, Option.some_or] at hlast
      exact Or.inr (hrest.trans hlast)

/-- **The lines of two texts put together are the lines of both**, if the first one ends a
line. Only the last row of a text can be continued by what follows, and the last row of the
first text is empty. -/
theorem lines_append {a : List Char} (ha : EndsLine a) (b : List Char) :
    lines (a ++ b) = lines a ++ lines b := by
  induction a using rowInduction with
  | last row hrow =>
    rw [ha.eq_nil_of_row hrow]
    rfl
  | row row rest hrow ih =>
    rw [List.append_assoc, List.cons_append, lines_row_newline hrow, lines_row_newline hrow,
      ih ha.of_row_newline]
    rfl

/-! ## The three passes -/

/-- The layer marks of some lines are added to those that were counted behind them. -/
theorem foldr_layerMarks (ls : List (List Char)) (n : Nat) :
    ls.foldr (fun line count => layerMarks line + count) n =
      ls.foldr (fun line count => layerMarks line + count) 0 + n := by
  induction ls with
  | nil => exact (Nat.zero_add n).symm
  | cons line rest ih => rw [List.foldr_cons, ih, List.foldr_cons, Nat.add_assoc]

/-- Taking in lines one after another updates by what they declare together. -/
theorem Metadata.foldl_scanLine (known : Metadata) (ls : List (List Char)) :
    ls.foldl scanLine known = known.update (ofLines ls) := by
  induction ls generalizing known with
  | nil => exact (update_empty known).symm
  | cons line rest ih =>
    have hrest : ofLines (line :: rest) = (ofLine line).update (ofLines rest) := by
      show rest.foldl scanLine (scanLine empty line) = _
      rw [ih, scanLine_eq_update, empty_update]
    rw [List.foldl_cons, ih, scanLine_eq_update, hrest, update_assoc]

/-- The facts that the second of two texts declares replace those of the first. -/
theorem Metadata.extract_append {a : List Char} (ha : EndsLine a) (b : List Char) :
    extract (a ++ b) = (extract a).update (extract b) := by
  rw [extract, ofLines, lines_append ha, List.foldl_append, foldl_scanLine]
  rfl

/-- A run over two texts is a run over the first that is continued over the second. -/
theorem finalState_append (settings : EstimatorSettings) {a : List Char} (ha : EndsLine a)
    (b : List Char) :
    finalState settings (a ++ b) =
      MotionState.run settings.policy (finalState settings a) (movesOf b) := by
  have hmoves : movesOf (a ++ b) = movesOf a ++ movesOf b := by
    rw [movesOf, lines_append ha, List.filterMap_append]
    rfl
  rw [finalState, hmoves, MotionState.run_append]
  rfl

/-- **The analysis of two texts put together at a line boundary**: the layer marks of both
are counted, every fact is that of the second text if it declares one and that of the first
otherwise, and the simulation is that of the first text, continued with the linear moves on
the lines of the second. -/
theorem analysis_append (settings : EstimatorSettings) {a : List Char} (ha : EndsLine a)
    (b : List Char) :
    countLayers (a ++ b) = countLayers a + countLayers b ∧
      (Metadata.extract (a ++ b) = {
        flavor := (Metadata.extract b).flavor.or (Metadata.extract a).flavor
        estimatedTime :=
          (Metadata.extract b).estimatedTime.or (Metadata.extract a).estimatedTime
        filamentUsed := (Metadata.extract b).filamentUsed.or (Metadata.extract a).filamentUsed
        layerHeight := (Metadata.extract b).layerHeight.or (Metadata.extract a).layerHeight }) ∧
      simulate settings (a ++ b) =
        (MotionState.run settings.policy (finalState settings a)
          ((lines b).filterMap Move.parse)).toSimulation := by
  refine ⟨?_, ?_, ?_⟩
  · unfold countLayers
    rw [lines_append ha, List.foldr_append, foldr_layerMarks]
  · exact Metadata.extract_append ha b
  · rw [simulate, finalState_append settings ha]
    rfl

/-- Two texts with both line ends, the second of which ends in the middle of a line; a fact
that only the first declares is kept, and one that both declare is replaced. -/
theorem analysis_of_two_parts :
    let settings : EstimatorSettings := ⟨600, .skipMove⟩
    let a := ";FLAVOR:Marlin\r\n;TIME:30\n;LAYER:0\nG1 X5 F0\r\n".toList
    let b := "G0 X9\n;TIME:90\r\n\n; layer\nG1 Y2\r".toList
    EndsLine a ∧ (Metadata.extract (a ++ b)).flavor = some "Marlin" ∧
      (Metadata.extract (a ++ b)).estimatedTime = some 90 ∧ countLayers (a ++ b) = 1 + 1 ∧
      simulate settings (a ++ b) =
        (MotionState.run .skipMove (finalState settings a)
          ((lines b).filterMap Move.parse)).toSimulation := by
  intro settings a b
  have ha : EndsLine a := by decide +kernel
  obtain ⟨hlayers, hfacts, hsimulation⟩ := analysis_append settings ha b
  refine ⟨ha, ?_, ?_, ?_, hsimulation⟩
  · rw [hfacts]
    decide +kernel
  · rw [hfacts]
    decide +kernel
  · rw [hlayers]
    decide +kernel

/-- A line that goes on in the second text is a line of neither. -/
example : lines ("G1 X5".toList ++ "0\nG0".toList) = ["G1 X50".toList, "G0".toList] := by
  decide +kernel

end PrintJob

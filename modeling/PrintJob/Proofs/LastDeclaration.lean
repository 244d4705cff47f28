/-
# The last declaration holds

A line without a semicolon declares nothing (`Metadata.ofLine_eq_empty`), so looking
at the lines with a semicolon alone loses nothing: taking in a line is the same as
updating by what it declares (`Metadata.scanLine_eq_update`). Hence every fact of a
text is the one on the last line that declares it, whatever the lines between say
about the others (`Metadata.extract_eq_last`).
-/
import PrintJob.Metadata
import PrintJob.Proofs.LastValue
import PrintJob.Proofs.MarkerSearch

namespace PrintJob

/-! ## Lines without a comment -/

/-- All markers have a semicolon, so no convention finds its value on a line without one. -/
theorem Declaration.eq_none_of_not_mem {line : List Char} (h : ';' ∉ line) :
    flavor line = none ∧ time line = none ∧ printingTime line = none ∧
      filamentUsed line = none ∧ layerHeight line = none := by
  have hexact : ∀ marker, ';' ∈ marker → afterFirst marker line = none := fun _ hmarker =>
    afterFirst_eq_none hmarker h
  have hcaseless : ∀ marker, ';' ∈ marker → afterCaseless marker line = none := fun _ hmarker =>
    afterCaseless_eq_none hmarker (by decide) h
  refine ⟨?_, ?_, ?_, ?_, ?_⟩
  · rw [flavor, hexact _ (by decide)]
    rfl
  · rw [time, hexact _ (by decide)]
    rfl
  · rw [printingTime, hcaseless _ (by decide)]
    rfl
  · rw [filamentUsed, hcaseless _ (by decide)]
    rfl
  · rw [layerHeight, hcaseless _ (by decide)]
    rfl

namespace Metadata

/-- A line without a semicolon declares nothing. -/
theorem ofLine_eq_empty {line : List Char} (h : ';' ∉ line) : ofLine line = empty := by
  obtain ⟨hflavor, htime, hprinting, hfilament, hheight⟩ := Declaration.eq_none_of_not_mem h
  rw [ofLine, hflavor, htime, hprinting, hfilament, hheight]
  rfl

/-- **Taking in a line updates by what the line declares**, with or without a semicolon. -/
theorem scanLine_eq_update (known : Metadata) (line : List Char) :
    known.scanLine line = known.update (ofLine line) := by
  rw [scanLine]
  by_cases h : line.contains ';' = true
  · rw [if_pos h]
  · have hmem : ';' ∉ line := fun hmem => h (List.contains_iff_mem.mpr hmem)
    rw [if_neg h, ofLine_eq_empty hmem, update_empty]

/-! ## All lines of a text -/

/-- A fact that lines replace by the one they declare is in the end the last one declared. -/
theorem extract_view {β : Type} (view : Metadata → Option β) (hempty : view empty = none)
    (hupdate : ∀ old new, view (old.update new) = (view new).or (view old)) (text : List Char) :
    view (extract text) = (lines text).findSomeRev? fun line => view (ofLine line) := by
  have hstep : ∀ known line, view (known.scanLine line) = (view (ofLine line)).or (view known) :=
    fun known line => by rw [scanLine_eq_update, hupdate]
  rw [extract, ofLines, foldl_eq_or view hstep, hempty, Option.or_none]

/-- **Every fact of a text is the last one declared.** Of a time and a duration on one
line the duration holds. A line that declares no fact of a kind, because its value is
malformed or for any other reason, leaves the fact of that kind as it is. -/
theorem extract_eq_last (text : List Char) :
    ((extract text).flavor = (lines text).findSomeRev? Declaration.flavor ∧
      (extract text).estimatedTime = (lines text).findSomeRev? (fun line =>
        (Declaration.printingTime line).or (Declaration.time line)) ∧
      (extract text).filamentUsed = (lines text).findSomeRev? Declaration.filamentUsed ∧
      (extract text).layerHeight = (lines text).findSomeRev? Declaration.layerHeight) ∧
    ∀ (known : Metadata) (line : List Char),
      (Declaration.flavor line = none → (known.scanLine line).flavor = known.flavor) ∧
      (Declaration.printingTime line = none → Declaration.time line = none →
        (known.scanLine line).estimatedTime = known.estimatedTime) ∧
      (Declaration.filamentUsed line = none →
        (known.scanLine line).filamentUsed = known.filamentUsed) ∧
      (Declaration.layerHeight line = none →
        (known.scanLine line).layerHeight = known.layerHeight) := by
  constructor
  · exact ⟨extract_view flavor rfl (fun _ _ => rfl) text,
      extract_view estimatedTime rfl (fun _ _ => rfl) text,
      extract_view filamentUsed rfl (fun _ _ => rfl) text,
      extract_view layerHeight rfl (fun _ _ => rfl) text⟩
  · intro known line
    rw [scanLine_eq_update]
    refine ⟨fun h => ?_, fun hprinting htime => ?_, fun h => ?_, fun h => ?_⟩
    · exact Option.or_eq_right_of_none h
    · exact Option.or_eq_right_of_none (by rw [ofLine, hprinting, htime]; rfl)
    · exact Option.or_eq_right_of_none h
    · exact Option.or_eq_right_of_none h

/-- A line with four malformed values keeps the facts that the lines before declare. -/
theorem malformed_values_keep_facts :
    let text := ";FLAVOR:Marlin\n;TIME:300\n;Layer height: 0.3\n".toList
    let known := extract text
    let line := ";TIME:later;Layer height: n/a;Filament used: m; Estimated printing time = soon".toList
    known.estimatedTime = some 300 ∧ Declaration.flavor line = none ∧
      Declaration.printingTime line = none ∧ Declaration.time line = none ∧
      Declaration.filamentUsed line = none ∧ Declaration.layerHeight line = none ∧
      (known.scanLine line).flavor = known.flavor ∧
      (known.scanLine line).estimatedTime = known.estimatedTime ∧
      (known.scanLine line).filamentUsed = known.filamentUsed ∧
      (known.scanLine line).layerHeight = known.layerHeight := by
  intro text known line
  have hknown : known.estimatedTime = some 300 := by decide +kernel
  have hflavor : Declaration.flavor line = none := by decide +kernel
  have hprinting : Declaration.printingTime line = none := by decide +kernel
  have htime : Declaration.time line = none := by decide +kernel
  have hfilament : Declaration.filamentUsed line = none := by decide +kernel
  have hheight : Declaration.layerHeight line = none := by decide +kernel
  obtain ⟨hf, ht, hl, hh⟩ := (extract_eq_last text).2 known line
  exact ⟨hknown, hflavor, hprinting, htime, hfilament, hheight, hf hflavor, ht hprinting htime,
    hl hfilament, hh hheight⟩

end Metadata

end PrintJob

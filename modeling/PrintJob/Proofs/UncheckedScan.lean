/-
# The check for a semicolon only saves time

A line is searched for the values of five conventions, one after another, and each value that is
found replaces the fact that is known (`Metadata.note`, `Metadata.notes`). A line without a
semicolon is not searched at all. That changes nothing: every marker has a semicolon, so none of
the five searches finds a value there (`Metadata.scanLine_without_check`).
-/
import PrintJob.Proofs.LastDeclaration

namespace PrintJob

namespace Metadata

/-! ## One convention after another -/

/-- Takes in the value that a convention finds on a line; if it finds none, nothing changes. -/
def note {β : Type} (convention : List Char → Option β) (replace : Metadata → β → Metadata)
    (line : List Char) (known : Metadata) : Metadata :=
  match convention line with
  | some value => replace known value
  | none => known

/-- What the conventions do with a line, in their order. Two of them tell the print time. -/
def notes (line : List Char) : List (Metadata → Metadata) :=
  [note Declaration.flavor (fun known value => { known with flavor := some value }) line,
    note Declaration.time (fun known value => { known with estimatedTime := some value }) line,
    note Declaration.printingTime
      (fun known value => { known with estimatedTime := some value }) line,
    note Declaration.filamentUsed
      (fun known value => { known with filamentUsed := some value }) line,
    note Declaration.layerHeight
      (fun known value => { known with layerHeight := some value }) line]

/-- Takes in one more line by all conventions, with or without a semicolon. -/
def scanUnchecked (known : Metadata) (line : List Char) : Metadata :=
  (notes line).foldl (fun known note => note known) known

theorem note_of_none {β : Type} {convention : List Char → Option β} {line : List Char}
    (h : convention line = none) (replace : Metadata → β → Metadata) (known : Metadata) :
    note convention replace line known = known := by
  unfold note
  rw [h]

/-- All conventions one after another update by what the line declares: of the two print times
the one that is taken in later holds. -/
theorem scanUnchecked_eq_update (known : Metadata) (line : List Char) :
    known.scanUnchecked line = known.update (ofLine line) := by
  unfold scanUnchecked notes note ofLine update
  cases Declaration.flavor line <;> cases Declaration.time line <;>
    cases Declaration.printingTime line <;> cases Declaration.filamentUsed line <;>
    cases Declaration.layerHeight line <;> rfl

/-- On a line without a semicolon none of the conventions does anything. -/
theorem note_eq_self {line : List Char} (h : ';' ∉ line) (known : Metadata) :
    ∀ note ∈ notes line, note known = known := by
  obtain ⟨hflavor, htime, hprinting, hfilament, hheight⟩ := Declaration.eq_none_of_not_mem h
  unfold notes
  rw [List.forall_mem_cons, List.forall_mem_cons, List.forall_mem_cons, List.forall_mem_cons,
    List.forall_mem_singleton]
  exact ⟨note_of_none hflavor _ _, note_of_none htime _ _, note_of_none hprinting _ _,
    note_of_none hfilament _ _, note_of_none hheight _ _⟩

/-! ## The check -/

/-- **The check for a semicolon only saves time.** Any record and any line, also one with line ends
in it, give the same record with the check and without it, and so do all lines of a text. On a
line without a semicolon no convention finds a value, so none of them changes a record. -/
theorem scanLine_without_check :
    (∀ (known : Metadata) (line : List Char), known.scanLine line = known.scanUnchecked line) ∧
    (∀ line : List Char, ';' ∉ line →
      (Declaration.flavor line = none ∧ Declaration.time line = none ∧
        Declaration.printingTime line = none ∧ Declaration.filamentUsed line = none ∧
        Declaration.layerHeight line = none) ∧
      ∀ (known : Metadata), ∀ note ∈ notes line, note known = known) ∧
    ∀ text, extract text = (lines text).foldl scanUnchecked empty := by
  have hline : ∀ (known : Metadata) (line : List Char),
      known.scanLine line = known.scanUnchecked line := by
    intro known line
    rw [scanLine_eq_update, scanUnchecked_eq_update]
  refine ⟨hline, ?_, ?_⟩
  · intro line h
    exact ⟨Declaration.eq_none_of_not_mem h, note_eq_self h⟩
  · intro text
    rw [extract, ofLines, funext₂ hline]

/-- Markers that lack their semicolon, on what is one line with a line end in it. -/
theorem scanLine_without_semicolon :
    let line := "G1 X5 FLAVOR:Marlin TIME:60\n estimated printing time = 1h, layer height: 0.2".toList
    let known : Metadata := { estimatedTime := some 7 }
    ';' ∉ line ∧ known.scanLine line = known.scanUnchecked line ∧
      Declaration.time line = none ∧ Declaration.printingTime line = none ∧
      Declaration.layerHeight line = none ∧ ∀ note ∈ notes line, note known = known := by
  intro line known
  have hmem : ';' ∉ line := by decide +kernel
  obtain ⟨hscan, hnone, -⟩ := scanLine_without_check
  obtain ⟨⟨-, htime, hprinting, -, hheight⟩, hself⟩ := hnone line hmem
  exact ⟨hmem, hscan known line, htime, hprinting, hheight, hself known⟩

end Metadata

end PrintJob

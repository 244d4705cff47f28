/-
# The files of a batch

The files that some events are about are put into a list one by one, each at its place in
the order of paths and none of them twice. So a batch holds exactly the files that have an
event (`mem_changedFiles`), in increasing order (`inOrder_changedFiles`); events that are
failures of the watcher add nothing and take nothing away.
-/
import PrintJob.Watch

namespace PrintJob

namespace Watch

/-- The files increase from each to the next, so none of them comes twice. -/
def InOrder (files : List PathParts) : Prop := files.Pairwise (· < ·)

theorem InOrder.nodup {files : List PathParts} (h : InOrder files) : files.Nodup := by
  apply List.Pairwise.imp _ h
  rintro a b hlt rfl
  exact List.lt_irrefl a hlt

/-! ## One more file -/

theorem mem_insertFile {f file : PathParts} {files : List PathParts} :
    f ∈ insertFile file files ↔ f = file ∨ f ∈ files := by
  induction files with
  | nil => simp [insertFile]
  | cons other rest ih =>
    rw [insertFile]
    split
    · next hsame =>
      subst hsame
      simp
    · split
      · exact List.mem_cons
      · rw [List.mem_cons, ih, List.mem_cons]
        constructor
        · rintro (hother | hfile | hrest)
          · exact Or.inr (Or.inl hother)
          · exact Or.inl hfile
          · exact Or.inr (Or.inr hrest)
        · rintro (hfile | hother | hrest)
          · exact Or.inr (Or.inl hfile)
          · exact Or.inl hother
          · exact Or.inr (Or.inr hrest)

/-- A file is put in at its place in the order. -/
theorem InOrder.insertFile {files : List PathParts} (h : InOrder files) (file : PathParts) :
    InOrder (insertFile file files) := by
  induction files with
  | nil => exact List.pairwise_singleton _ file
  | cons other rest ih =>
    obtain ⟨hfirst, hrest⟩ := List.pairwise_cons.mp h
    rw [Watch.insertFile]
    split
    · exact h
    · next hne =>
      split
      · next hlt =>
        apply List.pairwise_cons.mpr
        refine ⟨?_, h⟩
        intro later hlater
        rcases List.mem_cons.mp hlater with rfl | hmem
        · exact hlt
        · exact Std.lt_trans hlt (hfirst later hmem)
      · next hnlt =>
        have hgt : other < file := by
          rcases Std.lt_trichotomy file other with hlt | heq | hgt
          · exact absurd hlt hnlt
          · exact absurd heq hne
          · exact hgt
        apply List.pairwise_cons.mpr
        refine ⟨?_, ih hrest⟩
        intro later hlater
        rcases mem_insertFile.mp hlater with rfl | hmem
        · exact hgt
        · exact hfirst later hmem

/-! ## All files with an event -/

theorem mem_foldl_insertFile {f : PathParts} {added files : List PathParts} :
    f ∈ added.foldl (fun files file => insertFile file files) files ↔ f ∈ added ∨ f ∈ files := by
  induction added generalizing files with
  | nil => simp
  | cons file rest ih =>
    rw [List.foldl_cons, ih, mem_insertFile, List.mem_cons]
    constructor
    · rintro (hrest | hfile | hfiles)
      · exact Or.inl (Or.inr hrest)
      · exact Or.inl (Or.inl hfile)
      · exact Or.inr hfiles
    · rintro ((hfile | hrest) | hfiles)
      · exact Or.inr (Or.inl hfile)
      · exact Or.inl hrest
      · exact Or.inr (Or.inr hfiles)

/-- **The files of a batch are those that have an event**, whatever failures of the watcher
stand between the events. -/
theorem mem_changedFiles {f : PathParts} {events : List Event} :
    f ∈ changedFiles events ↔ .changed f ∈ events := by
  rw [changedFiles, mem_foldl_insertFile, List.mem_filterMap]
  constructor
  · rintro (⟨event, hmem, hfile⟩ | hnil)
    · cases event with
      | changed file =>
        cases hfile
        exact hmem
      | failed message => cases hfile
    · cases hnil
  · intro hmem
    exact Or.inl ⟨.changed f, hmem, rfl⟩

/-- **The files of a batch increase**, in whatever order the events have come. -/
theorem inOrder_changedFiles (events : List Event) : InOrder (changedFiles events) := by
  rw [changedFiles]
  apply List.foldlRecOn (motive := InOrder)
  · exact List.Pairwise.nil
  · intro files hfiles file _
    exact hfiles.insertFile file

end Watch

end PrintJob

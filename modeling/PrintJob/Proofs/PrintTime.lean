/-
# Where a print time comes from

The print time of a document is the time that the last of its lines with such a declaration
declares, unless that time is zero; then, and also if no line declares one, the moves are run
(`Document.time_of_last_declaration`). An earlier time is not looked at, not even if the last
one is zero. The time in the report and the time that is given on its own are found
separately and are the same.
-/
import PrintJob.Document
import PrintJob.Proofs.LastDeclaration

namespace PrintJob

/-! ## Declared times -/

/-- The line declares this print time. Where it has both a duration and a number of seconds,
the duration holds. -/
def DeclaresTime (line : List Char) (seconds : UInt64) : Prop :=
  Declaration.printingTime line = some seconds ∨
    (Declaration.printingTime line = none ∧ Declaration.time line = some seconds)

/-- The last line of the text that declares a print time declares this one. -/
def LastDeclaresTime (text : List Char) (seconds : UInt64) : Prop :=
  ∃ before line after, lines text = before ++ line :: after ∧ DeclaresTime line seconds ∧
    ∀ later ∈ after, Declaration.printingTime later = none ∧ Declaration.time later = none

theorem declaresTime_iff {line : List Char} {seconds : UInt64} :
    DeclaresTime line seconds ↔
      (Declaration.printingTime line).or (Declaration.time line) = some seconds :=
  Option.or_eq_some_iff.symm

/-- The fact that all lines together declare is the time of the last declaration. -/
theorem Metadata.estimatedTime_extract_iff {text : List Char} {seconds : UInt64} :
    (extract text).estimatedTime = some seconds ↔ LastDeclaresTime text seconds := by
  rw [extract_view Metadata.estimatedTime rfl (fun _ _ => rfl) text, findSomeRev?_eq_some_iff]
  constructor
  · rintro ⟨before, line, after, htext, hline, hafter⟩
    refine ⟨before, line, after, htext, declaresTime_iff.mpr hline, ?_⟩
    intro later hlater
    exact Option.or_eq_none_iff.mp (hafter later hlater)
  · rintro ⟨before, line, after, htext, hline, hafter⟩
    refine ⟨before, line, after, htext, declaresTime_iff.mp hline, ?_⟩
    intro later hlater
    exact Option.or_eq_none_iff.mpr (hafter later hlater)

/-! ## Documents -/

namespace Document

/-- The declared time of a document is the last one declared, if that is not zero. -/
theorem declaredTime_eq_some_iff {document : Document} {seconds : UInt64} :
    document.declaredTime = some seconds ↔
      LastDeclaresTime document.text seconds ∧ seconds ≠ 0 := by
  rw [declaredTime, Option.filter_eq_some_iff, metadata, Metadata.estimatedTime_extract_iff,
    bne_iff_ne]

/-- With a declared time nothing is simulated. -/
theorem report_of_declaredTime {document : Document} {seconds : UInt64}
    (h : document.declaredTime = some seconds) :
    (document.report.estimatedSeconds = seconds ∧ document.report.timeSource = .metadata ∧
      document.report.simulation = none) ∧ document.printTime = seconds := by
  rw [report, printTime, h]
  exact ⟨⟨rfl, rfl, rfl⟩, rfl⟩

/-- Without a declared time the moves are run. -/
theorem report_of_not_declaredTime {document : Document} (h : document.declaredTime = none) :
    (document.report.estimatedSeconds =
        (simulate document.settings document.text).roundedSeconds ∧
      document.report.timeSource = .simulation ∧
      document.report.simulation = some (simulate document.settings document.text)) ∧
      document.printTime = (simulate document.settings document.text).roundedSeconds := by
  rw [report, printTime, h]
  exact ⟨⟨rfl, rfl, rfl⟩, rfl⟩

/-- The simulation is in a report exactly if the print time is its. -/
theorem simulation_report (document : Document) :
    (document.report.timeSource = .metadata → document.report.simulation = none) ∧
      (document.report.timeSource = .simulation →
        document.report.simulation = some document.simulation) := by
  cases hdeclared : document.declaredTime with
  | some seconds =>
    obtain ⟨⟨-, hsource, hsimulation⟩, -⟩ := report_of_declaredTime hdeclared
    rw [hsource]
    constructor
    · intro _
      exact hsimulation
    · intro h
      cases h
  | none =>
    obtain ⟨⟨-, hsource, hsimulation⟩, -⟩ := report_of_not_declaredTime hdeclared
    rw [hsource]
    constructor
    · intro h
      cases h
    · intro _
      exact hsimulation

/-- The facts in a report are those of the document, wherever the time comes from. -/
theorem metadata_report (document : Document) : document.report.metadata = document.metadata := by
  rw [report]
  split <;> rfl

/-- **The last declaration decides where the print time comes from.** If it is positive, it is
the print time, and there is no simulation. If it is zero, whatever the lines before it
declare, or if there is none, the print time is that of the simulation, rounded to whole
seconds. The report says the same time as the one that is given on its own. -/
theorem time_of_last_declaration (document : Document) :
    (∀ seconds, LastDeclaresTime document.text seconds → 0 < seconds →
      (document.report.estimatedSeconds = seconds ∧ document.report.timeSource = .metadata ∧
        document.report.simulation = none) ∧ document.printTime = seconds) ∧
      ((¬ ∃ seconds, LastDeclaresTime document.text seconds ∧ 0 < seconds) →
        (document.report.estimatedSeconds =
            (simulate document.settings document.text).roundedSeconds ∧
          document.report.timeSource = .simulation ∧
          document.report.simulation = some (simulate document.settings document.text)) ∧
          document.printTime = (simulate document.settings document.text).roundedSeconds) := by
  constructor
  · intro seconds hlast hpositive
    apply report_of_declaredTime
    exact declaredTime_eq_some_iff.mpr ⟨hlast, (UInt64.pos_iff_ne_zero).mp hpositive⟩
  · intro hnot
    apply report_of_not_declaredTime
    rw [Option.eq_none_iff_forall_ne_some]
    intro seconds hdeclared
    obtain ⟨hlast, hne⟩ := declaredTime_eq_some_iff.mp hdeclared
    exact hnot ⟨seconds, hlast, UInt64.pos_iff_ne_zero.mpr hne⟩

/-- A positive time, then a line with a zero duration and seconds that are not looked at: the
moves are run. The same lines the other way round: they are not. -/
theorem time_after_zero_duration :
    let first := ";TIME:30\nG1 X20\n".toList
    let second := ";TIME:90; estimated printing time = 0s\n".toList
    let settings : EstimatorSettings := {}
    (LastDeclaresTime (second ++ first) 30 ∧
      (report ⟨second ++ first, settings⟩).timeSource = .metadata ∧
      printTime ⟨second ++ first, settings⟩ = 30) ∧
    ((¬ ∃ seconds, LastDeclaresTime (first ++ second) seconds ∧ 0 < seconds) ∧
      (report ⟨first ++ second, settings⟩).timeSource = .simulation ∧
      printTime ⟨first ++ second, settings⟩ = (simulate settings (first ++ second)).roundedSeconds)
    := by
  intro first second settings
  have hpositive : LastDeclaresTime (second ++ first) 30 :=
    Metadata.estimatedTime_extract_iff.mp (by decide +kernel)
  have hzero : ¬ ∃ seconds, LastDeclaresTime (first ++ second) seconds ∧ 0 < seconds := by
    rintro ⟨seconds, hlast, hpos⟩
    have hseconds := Metadata.estimatedTime_extract_iff.mpr hlast
    have hextract : (Metadata.extract (first ++ second)).estimatedTime = some 0 := by
      decide +kernel
    rw [hextract] at hseconds
    cases hseconds
    exact absurd hpos (by decide)
  have hdeclared := (time_of_last_declaration ⟨second ++ first, settings⟩).1 30 hpositive
    (by decide)
  have hsimulated := (time_of_last_declaration ⟨first ++ second, settings⟩).2 hzero
  exact ⟨⟨hpositive, hdeclared.1.2.1, hdeclared.2⟩, hzero, hsimulated.1.2.1, hsimulated.2⟩

end Document

end PrintJob

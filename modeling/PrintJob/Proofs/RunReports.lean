/-
# The reports of a run

Whatever the order in which the files are analysed, their reports are those of the paths, one
for each path and in their order. A program that does not watch prints exactly these reports,
and its status says whether one of them is an error (`every_run_reports_every_path`).
-/
import PrintJob.CommandLine
import PrintJob.Proofs.SettingsLayers
import PrintJob.Proofs.TaskRun

namespace PrintJob

/-! ## The order in which tasks are done -/

/-- A report is there as soon as its place has been analysed. -/
theorem lookup_completions (fs : FileSystem) (settings : EstimatorSettings) (paths : List String)
    (order : List Nat) (place : Nat) :
    (completions fs settings paths order).lookup place =
      if place ∈ order then paths[place]?.map (analyzeFile fs settings) else none := by
  induction order with
  | nil => rfl
  | cons first rest ih =>
    rw [completions, List.filterMap_cons]
    by_cases hplace : place = first
    · subst hplace
      rw [if_pos List.mem_cons_self]
      cases hpath : paths[place]? with
      | none =>
        show (completions fs settings paths rest).lookup place = _
        rw [ih, hpath]
        exact ite_self _
      | some path =>
        exact List.lookup_cons_self
    · have hmem : place ∈ first :: rest ↔ place ∈ rest := List.mem_cons.trans (or_iff_right hplace)
      rw [if_congr hmem rfl rfl, ← ih]
      cases paths[first]? with
      | none => rfl
      | some path =>
        rw [Option.map_some, List.lookup_cons, beq_false_of_ne hplace]
        rfl

/-- What is found in all places of a list, one after another, is the list. -/
theorem filterMap_getElem?_range {α β : Type} (f : α → β) (xs : List α) :
    (List.range xs.length).filterMap (fun place => xs[place]?.map f) = xs.map f := by
  induction xs with
  | nil => rfl
  | cons x xs ih =>
    rw [List.length_cons, List.range_succ_eq_map, List.filterMap_cons, List.filterMap_map]
    exact congrArg (List.cons (f x)) ih

/-- **The order in which the files are analysed does not matter.** -/
theorem analyzeInOrder_eq_map (fs : FileSystem) (settings : EstimatorSettings)
    {paths : List String} {order : List Nat} (h : order.Perm (List.range paths.length)) :
    analyzeInOrder fs settings paths order = paths.map (analyzeFile fs settings) := by
  rw [analyzeInOrder, gather, ← filterMap_getElem?_range]
  apply List.filterMap_congr
  intro place hplace
  rw [lookup_completions, if_pos (h.mem_iff.mpr hplace)]

theorem analyzeFiles_eq_map (fs : FileSystem) (settings : EstimatorSettings)
    (paths : List String) :
    analyzeFiles fs settings paths = paths.map (analyzeFile fs settings) :=
  analyzeInOrder_eq_map fs settings (List.Perm.refl _)

/-! ## The program -/

/-- What was loaded is what the arguments ask for. -/
theorem Configuration.eq_ofLayers_of_load {fs : FileSystem} {userFile : Option String}
    {arguments : Arguments} {configuration : Configuration}
    (h : load fs userFile arguments = .ok configuration) :
    ∃ settings sources, configuration = ofLayers arguments settings sources := by
  rw [load_eq fs userFile arguments rfl rfl] at h
  split at h
  · cases h
  · split at h
    · cases h
      exact ⟨_, _, rfl⟩
    · cases h

/-- A program that does not watch prints the reports of its files and ends. -/
theorem runProgram_of_load {fs : FileSystem} {userFile : Option String} {argv : List String}
    {arguments : Arguments} {configuration : Configuration}
    (hparse : Arguments.parse argv = .ok arguments)
    (hload : Configuration.load fs userFile arguments = .ok configuration)
    (hwatch : arguments.watch = false) :
    let reports := arguments.files.map (analyzeFile fs configuration.settings)
    runProgram fs userFile argv =
      ⟨render arguments.format reports, "", .exit (exitStatus reports)⟩ := by
  obtain ⟨settings, sources, rfl⟩ := Configuration.eq_ofLayers_of_load hload
  rw [runProgram, hparse]
  simp only [hload]
  rw [runConfigured, analyzeFiles_eq_map]
  exact if_neg (by simpa [Configuration.ofLayers] using hwatch)

/-- A program fails exactly if one of the reports is an error. -/
theorem exitStatus_cases (reports : List FileReport) :
    (exitStatus reports = 1 ∧ ∃ report ∈ reports, ∃ failure, report.outcome = .error failure) ∨
      (exitStatus reports = 0 ∧ ∀ report ∈ reports, ∃ found, report.outcome = .ok found) := by
  rw [exitStatus]
  by_cases hfailed : reports.any FileReport.failed = true
  · left
    rw [if_pos hfailed]
    obtain ⟨report, hmem, hreport⟩ := List.any_eq_true.mp hfailed
    refine ⟨rfl, report, hmem, ?_⟩
    rw [FileReport.failed] at hreport
    cases houtcome : report.outcome with
    | ok found =>
      rw [houtcome] at hreport
      cases hreport
    | error failure => exact ⟨failure, rfl⟩
  · right
    rw [if_neg hfailed]
    refine ⟨rfl, ?_⟩
    intro report hmem
    cases houtcome : report.outcome with
    | ok found => exact ⟨found, rfl⟩
    | error failure =>
      exfalso
      apply hfailed
      refine List.any_eq_true.mpr ⟨report, hmem, ?_⟩
      rw [FileReport.failed, houtcome]

/-- **Every run over some paths ends, and then there is one report for each path, in the order
of the paths**: that of the document if the file is text, and an error otherwise. It does not
matter which tasks get on before others, and no report depends on the content of another
file. A program that does not watch prints exactly these reports, and it fails exactly if one
of them is an error. -/
theorem every_run_reports_every_path (fs : FileSystem) :
    (∀ (settings : EstimatorSettings) (paths : List String),
      let reports : List FileReport :=
        paths.map fun path => ⟨path, outcomeOf settings path (fs.readText path)⟩
      (∀ s, Tasks.Reachable fs settings paths s →
        s.stepsTaken ≤ 4 * paths.length ∧
          (∀ s', Tasks.Step fs settings s s' → s'.stepsTaken = s.stepsTaken + 1) ∧
          (∃ s', Relation.ReflTransGen (Tasks.Step fs settings) s s' ∧
            Tasks.IsFinal fs settings s') ∧
          (Tasks.IsFinal fs settings s → s.collected = reports)) ∧
        analyzeFiles fs settings paths = reports ∧
        (∀ order, order.Perm (List.range paths.length) →
          analyzeInOrder fs settings paths order = reports) ∧
        ∀ (other : FileSystem) (place : Nat) (path : String), paths[place]? = some path →
          other.readText path = fs.readText path →
          (analyzeFiles other settings paths)[place]? = reports[place]?) ∧
    ∀ userFile argv arguments configuration, Arguments.parse argv = .ok arguments →
      Configuration.load fs userFile arguments = .ok configuration → arguments.watch = false →
      ∀ s, Tasks.Reachable fs configuration.settings arguments.files s →
        Tasks.IsFinal fs configuration.settings s →
        (runProgram fs userFile argv).output = render arguments.format s.collected ∧
          ∃ status, (runProgram fs userFile argv).ending = .exit status ∧
            (status ≠ 0 ↔
              ∃ report ∈ s.collected, ∃ failure, report.outcome = .error failure) := by
  constructor
  · intro settings paths reports
    refine ⟨?_, analyzeFiles_eq_map fs settings paths, ?_, ?_⟩
    · intro s hs
      have hsound := Tasks.sound_of_reachable hs
      exact ⟨hsound.stepsTaken_le, fun s' hstep => hstep.stepsTaken, Tasks.exists_final hs,
        hsound.collected_of_final⟩
    · intro order horder
      exact analyzeInOrder_eq_map fs settings horder
    · intro other place path hpath hcontent
      rw [analyzeFiles_eq_map, List.getElem?_map, List.getElem?_map, hpath, Option.map_some,
        Option.map_some, analyzeFile_eq, hcontent]
  · intro userFile argv arguments configuration hparse hload hwatch s hs hfinal
    have hcollected := (Tasks.sound_of_reachable hs).collected_of_final hfinal
    rw [hcollected, runProgram_of_load hparse hload hwatch]
    refine ⟨rfl, _, rfl, ?_⟩
    rcases exitStatus_cases (arguments.files.map (analyzeFile fs configuration.settings)) with
      ⟨hstatus, herror⟩ | ⟨hstatus, hfound⟩
    · rw [hstatus]
      exact ⟨fun _ => herror, fun _ => Nat.one_ne_zero⟩
    · rw [hstatus]
      constructor
      · intro hne
        exact absurd rfl hne
      · rintro ⟨report, hmem, failure, hfailure⟩
        obtain ⟨found, hreport⟩ := hfound report hmem
        rw [hreport] at hfailure
        cases hfailure

/-- The task of the second file is done before that of the first has read anything; the first
file is missing. -/
theorem reports_of_overtaking_task :
    let fs : FileSystem := {
      readText := fun path =>
        if path = "part.gcode" then .ok ";TIME:20".toList else .error .notFound
      isFile := fun _ => false
      canonical := fun _ => .error .notFound }
    let arguments : Arguments := { files := ["gone.gcode", "part.gcode"] }
    let argv := ["gcode-analyze", "gone.gcode", "part.gcode"]
    let reports : List FileReport := [
      ⟨"gone.gcode", .error (readFailure "gone.gcode" .notFound)⟩,
      ⟨"part.gcode", .ok (Document.report ⟨";TIME:20".toList, {}⟩)⟩]
    Arguments.parse argv = .ok arguments ∧ ∃ s, Tasks.Reachable fs {} arguments.files s ∧
      Tasks.IsFinal fs {} s ∧ s.collected = reports ∧
      (runProgram fs none argv).output = render .text s.collected ∧
      ∃ status, (runProgram fs none argv).ending = .exit status ∧
        (status ≠ 0 ↔ ∃ report ∈ s.collected, ∃ failure, report.outcome = .error failure) := by
  intro fs arguments argv reports
  have hparse : Arguments.parse argv = .ok arguments := by rfl
  have hload : Configuration.load fs none arguments =
      .ok (Configuration.ofLayers arguments {} []) := by decide +kernel
  have hstart : Tasks.Reachable fs {} arguments.files (.start arguments.files) := .refl
  have hfirst := hstart.tail (.start _ "gone.gcode" ["part.gcode"] rfl)
  have hsecond := hfirst.tail (.start _ "part.gcode" [] rfl)
  have hread := hsecond.tail (.advance _ [⟨"gone.gcode", .started⟩] [] _ _ rfl rfl)
  have hdone := hread.tail (.advance _ [⟨"gone.gcode", .started⟩] [] _ _ rfl rfl)
  have hmissing := hdone.tail (.advance _ [] _ _ _ rfl rfl)
  have hfailed := hmissing.tail (.advance _ [] _ _ _ rfl rfl)
  have hone := hfailed.tail (.collect _ "gone.gcode" _ rfl rfl)
  have htwo := hone.tail (.collect _ "part.gcode" _ rfl rfl)
  have hfinal := (Tasks.sound_of_reachable htwo).isFinal rfl
  obtain ⟨hruns, hprogram⟩ := every_run_reports_every_path fs
  refine ⟨hparse, _, htwo, hfinal, ?_, ?_⟩
  · exact ((hruns {} arguments.files).1 _ htwo).2.2.2 hfinal
  · exact hprogram none argv arguments _ hparse hload rfl _ htwo hfinal

end PrintJob

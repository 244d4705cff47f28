/-
# No update is lost

Whatever the order of writes, events and moves of the loop, the latest report of a watched
file is of its present content, or the file is awaited and will be reported again
(`Sound.upToDate`). The critical moment is between reading a file and reporting it: if the
file is written then, the report is out of date as it is made, but the event of that write
has not been taken into the batch, because no events are taken while a batch is reported
(`Sound.inHand`).

The invariants of all states that a run can come to are those of `Sound`; each is shown to be
kept by every step, and `no_update_lost` says what they amount to.
-/
import PrintJob.Proofs.WatchRun

namespace PrintJob

namespace Watch

variable {watched : List PathParts} {settings : EstimatorSettings} {s s' : State}

/-! ## Reports that are out of date -/

/-- What was read is the present content of the file, or there is an event that the loop has
not taken yet. -/
def State.IsFresh (s : State) (settings : EstimatorSettings) (reading : Reading) : Prop :=
  reading = .now s.fs settings reading.file ∨ s.Due reading.file

/-- The latest report of the file is of its present content, or another one will be made. -/
def State.IsUpToDate (s : State) (settings : EstimatorSettings) (file : PathParts) : Prop :=
  s.latest file = some (.now s.fs settings file) ∨ s.Awaits file

/-- The latest report of a file after one more report. -/
theorem State.latest_of_reports {reading : Reading} (h : s'.reports = s.reports ++ [reading])
    (file : PathParts) :
    s'.latest file = if reading.file = file then some reading else s.latest file := by
  rw [State.latest, h, List.filter_append, State.latest]
  by_cases hfile : reading.file = file
  · rw [if_pos hfile]
    simp [hfile]
  · rw [if_neg hfile]
    simp [hfile]

/-- A step without a report that leaves the content of a file alone and does not take it off
the list leaves the file as up to date as it was. -/
theorem State.IsUpToDate.quiet {file : PathParts} (h : s.IsUpToDate settings file)
    (hcontent : s'.fs.readText file.toPath = s.fs.readText file.toPath)
    (hreports : s'.reports = s.reports) (hawaits : s.Awaits file → s'.Awaits file) :
    s'.IsUpToDate settings file := by
  rcases h with hlatest | hwait
  · left
    rw [State.latest, hreports, Reading.now_congr hcontent]
    exact hlatest
  · exact Or.inr (hawaits hwait)

/-- What was read stays fresh as long as the content of the file and the events for it stay. -/
theorem State.IsFresh.quiet {reading : Reading} (h : s.IsFresh settings reading)
    (hcontent : s'.fs.readText reading.file.toPath = s.fs.readText reading.file.toPath)
    (hdue : s.Due reading.file → s'.Due reading.file) : s'.IsFresh settings reading := by
  rcases h with hnow | hevent
  · left
    rw [Reading.now_congr hcontent]
    exact hnow
  · exact Or.inr (hdue hevent)

theorem State.Due.send {file : PathParts} (h : s.Due file) (events : List Event) :
    { s with underway := s.underway ++ events }.Due file := by
  rcases h with hsent | hqueued
  · exact Or.inl (List.mem_append_left events hsent)
  · exact Or.inr hqueued

theorem State.Due.deliver {file : PathParts} {before after : List Event} {event : Event}
    (h : s.Due file) (hsent : s.underway = before ++ event :: after) :
    { s with underway := before ++ after, loop := s.loop.deliver [event] }.Due file := by
  rw [State.Due, hsent] at h
  rw [State.Due, Loop.deliver]
  simp only [List.mem_append, List.mem_cons, List.not_mem_nil] at h ⊢
  tauto

/-! ## The invariants -/

/-- What holds in every state that a run can come to. -/
structure Sound (watched : List PathParts) (settings : EstimatorSettings) (s : State) : Prop where
  /-- Only watched files are awaited. -/
  awaited : ∀ file, s.Awaits file → file ∈ watched
  /-- Only watched files are reported. -/
  reported : ∀ reading ∈ s.reports, reading.file ∈ watched
  /-- The file that has been read is one of the batch, and what was read is fresh. -/
  inHand : ∀ reading, s.inHand = some reading →
    reading.file ∈ s.loop.phase.left ∧ s.IsFresh settings reading
  /-- The batches before the latest were reported in order. -/
  earlier : ∀ batch ∈ s.earlier, InOrder (batch.map Reading.file)
  /-- The latest batch is being reported in order. -/
  current : InOrder (s.current.map Reading.file ++ s.loop.phase.left)
  /-- Files that were written are up to date. -/
  upToDate : ∀ file ∈ watched, file ∈ s.written → s.IsUpToDate settings file

theorem Phase.mem_files_of_mem_left {phase : Phase} {file : PathParts} (h : file ∈ phase.left) :
    file ∈ phase.files := by
  cases phase with
  | idle => exact h
  | settling first => cases h
  | reporting files => exact h

theorem sound_start (watched : List PathParts) (settings : EstimatorSettings) (fs : FileSystem) :
    Sound watched settings (.start fs) where
  awaited := by
    rintro file ((hsent | hqueued) | (htaken | hfile))
    · cases hsent
    · cases hqueued
    · cases htaken
    · cases hfile
  reported := by
    intro reading hreading
    cases hreading
  inHand := by
    intro reading hreading
    cases hreading
  earlier := by
    intro batch hbatch
    cases hbatch
  current := List.Pairwise.nil
  upToDate := by
    intro file _ hwritten
    cases hwritten

namespace Sound

theorem awaited_step (hs : Sound watched settings s) (h : Step watched settings s s')
    (file : PathParts) (hfile : s'.Awaits file) : file ∈ watched := by
  rcases h.of_awaits hfile with hbefore | hwatched
  · exact hs.awaited file hbefore
  · exact hwatched

theorem file_watched (hs : Sound watched settings s) {reading : Reading}
    (h : s.inHand = some reading) : reading.file ∈ watched := by
  apply hs.awaited
  right
  right
  exact Phase.mem_files_of_mem_left (hs.inHand reading h).1

theorem reported_step (hs : Sound watched settings s) (h : Step watched settings s s')
    (reading : Reading) (hreading : reading ∈ s'.reports) : reading.file ∈ watched := by
  rcases h.reports with hsame | ⟨last, -, hheld, hlast⟩
  · rw [hsame] at hreading
    exact hs.reported reading hreading
  · rw [hlast] at hreading
    rcases List.mem_append.mp hreading with hbefore | hmem
    · exact hs.reported reading hbefore
    · rw [List.mem_singleton.mp hmem]
      exact hs.file_watched hheld

/-- While a file is in hand, the loop takes no events, so an event that is due stays so. -/
theorem inHand_step (hs : Sound watched settings s) (h : Step watched settings s s')
    (reading : Reading) (hreading : s'.inHand = some reading) :
    reading.file ∈ s'.loop.phase.left ∧ s'.IsFresh settings reading := by
  cases h with
  | write other fs others =>
    obtain ⟨hleft, hfresh⟩ := hs.inHand reading hreading
    have hwatched : reading.file ∈ watched := hs.file_watched hreading
    refine ⟨hleft, ?_⟩
    by_cases hfile : reading.file = other
    · right
      left
      exact List.mem_append_right _ (mem_eventsOf.mpr ⟨hfile, hwatched⟩)
    · exact hfresh.quiet (others reading.file hwatched hfile) (fun hdue => hdue.send _)
  | notice other =>
    obtain ⟨hleft, hfresh⟩ := hs.inHand reading hreading
    exact ⟨hleft, hfresh.quiet rfl (fun hdue => hdue.send _)⟩
  | failure message =>
    obtain ⟨hleft, hfresh⟩ := hs.inHand reading hreading
    exact ⟨hleft, hfresh.quiet rfl (fun hdue => hdue.send _)⟩
  | deliver before after event running sent =>
    obtain ⟨hleft, hfresh⟩ := hs.inHand reading hreading
    exact ⟨hleft, hfresh.quiet rfl (fun hdue => hdue.deliver sent)⟩
  | receive loop running move =>
    have hleft := (hs.inHand reading hreading).1
    rw [(Loop.receive_cases move).1] at hleft
    cases hleft
  | take first event rest running settling queued =>
    have hleft := (hs.inHand reading hreading).1
    rw [settling] at hleft
    cases hleft
  | drain loop running empty move =>
    obtain ⟨first, hsettling, -⟩ := Loop.drain_cases move
    have hleft := (hs.inHand reading hreading).1
    rw [show s.loop.phase = .settling first from hsettling] at hleft
    cases hleft
  | read file rest running next free =>
    cases hreading
    refine ⟨?_, Or.inl rfl⟩
    show file ∈ s.loop.phase.left
    rw [next]
    exact List.mem_cons_self
  | report last loop accepted running held move => cases hreading
  | finish loop running move =>
    have hleft := (hs.inHand reading hreading).1
    obtain ⟨-, ⟨next, rest, -, -, hsome⟩ | ⟨hdone, -, -⟩⟩ := Loop.report_cases move
    · cases hsome
    · rw [hdone] at hleft
      cases hleft

/-- A batch is put with the earlier ones when the next one begins, and then it is done. -/
theorem earlier_step (hs : Sound watched settings s) (h : Step watched settings s s')
    (batch : List Reading) (hbatch : batch ∈ s'.earlier) : InOrder (batch.map Reading.file) := by
  cases h with
  | drain loop running empty move =>
    rcases List.mem_append.mp hbatch with hbefore | hlast
    · exact hs.earlier batch hbefore
    · obtain ⟨first, hsettling, -⟩ := Loop.drain_cases move
      have hcurrent := hs.current
      rw [show s.loop.phase = .settling first from hsettling, Phase.left,
        List.append_nil] at hcurrent
      rw [List.mem_singleton.mp hlast]
      exact hcurrent
  | _ => exact hs.earlier batch hbatch

/-- The reports of a batch and the files that are left of it are always the whole batch. -/
theorem current_step (hs : Sound watched settings s) (h : Step watched settings s s') :
    InOrder (s'.current.map Reading.file ++ s'.loop.phase.left) := by
  have hcurrent := hs.current
  cases h with
  | receive loop running move =>
    obtain ⟨hidle, ⟨first, -, hphase⟩ | ⟨message, -, hphase⟩⟩ := Loop.receive_cases move
    · rw [hidle] at hcurrent
      rw [hphase]
      exact hcurrent
    · rw [hidle] at hcurrent
      rw [hphase]
      exact hcurrent
  | drain loop running empty move =>
    obtain ⟨first, -, -, hphase⟩ := Loop.drain_cases move
    rw [hphase]
    exact inOrder_changedFiles _
  | report reading loop accepted running held move =>
    obtain ⟨-, ⟨next, rest, hreporting, hphase, hnext⟩ | ⟨-, -, hnone⟩⟩ := Loop.report_cases move
    · cases hnext
      rw [hreporting] at hcurrent
      rw [hphase, List.map_append, List.append_assoc]
      exact hcurrent
    · cases hnone
  | finish loop running move =>
    obtain ⟨-, ⟨next, rest, -, -, hsome⟩ | ⟨hdone, hphase, -⟩⟩ := Loop.report_cases move
    · cases hsome
    · rw [hdone] at hcurrent
      rw [hphase]
      exact hcurrent
  | _ => exact hcurrent

/-- A report is fresh as it is made, or its file is awaited again by then. -/
theorem upToDate_report (hs : Sound watched settings s) {reading : Reading} {loop : Loop}
    {stopped : Bool} (hheld : s.inHand = some reading)
    (hmove : s.loop.report = some (loop, some reading.file)) {file : PathParts}
    (hfile : s.IsUpToDate settings file) :
    { s with
      loop := loop
      inHand := none
      current := s.current ++ [reading]
      stopped := stopped }.IsUpToDate settings file := by
  have hlatest := State.latest_of_reports (s.reports_report loop reading stopped) file
  by_cases hsame : reading.file = file
  · subst hsame
    rcases (hs.inHand reading hheld).2 with hnow | hdue
    · left
      rw [hlatest, if_pos rfl]
      exact congrArg some hnow
    · right
      left
      rw [State.Due, (Loop.report_cases hmove).1]
      exact hdue
  · rcases hfile with hbefore | hwait
    · left
      rw [hlatest, if_neg hsame]
      exact hbefore
    · right
      rcases (State.awaits_report hmove).mp hwait with hfile | hrest
      · exact absurd hfile.symm hsame
      · exact hrest

theorem upToDate_step (hs : Sound watched settings s) (h : Step watched settings s s')
    (file : PathParts) (hfile : file ∈ watched) (hwritten : file ∈ s'.written) :
    s'.IsUpToDate settings file := by
  cases h with
  | write other fs others =>
    rcases List.mem_cons.mp hwritten with rfl | hbefore
    · right
      exact (State.awaits_send s _).mpr (Or.inr (mem_eventsOf.mpr ⟨rfl, hfile⟩))
    · by_cases hother : file = other
      · right
        exact (State.awaits_send s _).mpr (Or.inr (mem_eventsOf.mpr ⟨hother, hfile⟩))
      · exact (hs.upToDate file hfile hbefore).quiet (others file hfile hother) rfl
          (fun hwait => (State.awaits_send s _).mpr (Or.inl hwait))
  | notice other =>
    exact (hs.upToDate file hfile hwritten).quiet rfl rfl
      (fun hwait => (State.awaits_send s _).mpr (Or.inl hwait))
  | failure message =>
    exact (hs.upToDate file hfile hwritten).quiet rfl rfl
      (fun hwait => (State.awaits_send s _).mpr (Or.inl hwait))
  | deliver before after event running sent =>
    exact (hs.upToDate file hfile hwritten).quiet rfl rfl (State.awaits_deliver sent).mpr
  | receive loop running move =>
    exact (hs.upToDate file hfile hwritten).quiet rfl rfl (State.awaits_receive move).mpr
  | take first event rest running settling queued =>
    exact (hs.upToDate file hfile hwritten).quiet rfl rfl (State.awaits_take queued).mpr
  | drain loop running empty move =>
    exact (hs.upToDate file hfile hwritten).quiet rfl (s.reports_drain loop)
      (State.awaits_drain empty move).mpr
  | read next rest running hnext free =>
    exact (hs.upToDate file hfile hwritten).quiet rfl rfl id
  | report reading loop accepted running held move =>
    exact hs.upToDate_report held move (hs.upToDate file hfile hwritten)
  | finish loop running move =>
    exact (hs.upToDate file hfile hwritten).quiet rfl rfl (State.awaits_finish move).mpr

/-- **Every step keeps all invariants.** -/
theorem step (hs : Sound watched settings s) (h : Step watched settings s s') :
    Sound watched settings s' where
  awaited := hs.awaited_step h
  reported := hs.reported_step h
  inHand := hs.inHand_step h
  earlier := hs.earlier_step h
  current := hs.current_step h
  upToDate := hs.upToDate_step h

/-- The reports of every batch are in order, those of a batch that is not done too. -/
theorem inOrder_batch (hs : Sound watched settings s) {batch : List Reading}
    (hbatch : batch ∈ s.batches) : InOrder (batch.map Reading.file) := by
  rcases List.mem_append.mp hbatch with hbefore | hlast
  · exact hs.earlier batch hbefore
  · rw [List.mem_singleton.mp hlast]
    exact (List.pairwise_append.mp hs.current).1

end Sound

/-- **All invariants hold in every state that a run can come to.** -/
theorem sound_of_reachable (h : Reachable watched settings s) : Sound watched settings s := by
  obtain ⟨fs, hrun⟩ := h
  induction hrun with
  | refl => exact sound_start watched settings fs
  | tail _ hstep ih => exact ih.step hstep

/-- **No update is lost.** As long as no report was refused, every watched file that was
written has a latest report of its present content, or an event for it is underway or queued,
or it waits in the batch. Only watched files are reported; each batch reports its files in
increasing order and none of them twice. No step, and so no failure of the watcher, takes a
file off the list of those that are awaited, unless it reports the file. After a report that
was refused there is none. -/
theorem no_update_lost (h : Reachable watched settings s) :
    (s.stopped = false → ∀ file ∈ watched, file ∈ s.written →
      s.latest file = some (.now s.fs settings file) ∨
        (.changed file ∈ s.underway ∨ .changed file ∈ s.loop.queue) ∨ s.InBatch file) ∧
      (∀ reading ∈ s.reports, reading.file ∈ watched) ∧
      (∀ batch ∈ s.batches, (batch.map Reading.file).Pairwise (· < ·) ∧
        (batch.map Reading.file).Nodup) ∧
      (∀ s', Step watched settings s s' → ∀ file, s.Awaits file →
        s'.Awaits file ∨ ∃ reading, reading.file = file ∧ s'.reports = s.reports ++ [reading]) ∧
      (s.stopped = true → ∀ s', Relation.ReflTransGen (Step watched settings) s s' →
        s'.reports = s.reports) := by
  have hs := sound_of_reachable h
  refine ⟨?_, hs.reported, ?_, ?_, ?_⟩
  · intro _ file hfile hwritten
    exact hs.upToDate file hfile hwritten
  · intro batch hbatch
    have horder : InOrder (batch.map Reading.file) := hs.inOrder_batch hbatch
    exact ⟨horder, horder.nodup⟩
  · intro s' hstep file hfile
    exact hstep.awaits hfile
  · intro hstopped s' hrun
    exact (reports_of_stopped hrun hstopped).2

/-- A file is written while it is being analysed, after a failure of the watcher: the report
that is made is out of date, and the event of the second write is underway. -/
theorem update_during_analysis_not_lost :
    let file : PathParts := ["prints", "a.gcode"]
    let settings : EstimatorSettings := {}
    let answers (text : String) : FileSystem := {
      readText := fun _ => .ok text.toList
      isFile := fun _ => true
      canonical := fun _ => .error .notFound }
    ∃ s, Reachable [file] settings s ∧ s.stopped = false ∧ file ∈ s.written ∧
      s.latest file = some (.now (answers ";TIME:20") settings file) ∧
      s.fs = answers ";TIME:30" ∧
      (s.latest file = some (.now s.fs settings file) ∨
        (.changed file ∈ s.underway ∨ .changed file ∈ s.loop.queue) ∨ s.InBatch file) := by
  intro file settings answers
  have hothers : ∀ (old new : FileSystem), ∀ other ∈ [file], other ≠ file →
      new.readText other.toPath = old.readText other.toPath := by
    intro old new other hmem hne
    exact absurd (List.mem_singleton.mp hmem) hne
  have hstart : Reachable [file] settings (.start (answers ";TIME:10")) := ⟨_, .refl⟩
  have hwrite := hstart.step (.write _ file (answers ";TIME:20") (hothers _ _))
  have hfailure := hwrite.step (.failure _ "queue overflow")
  -- the failure overtakes the event
  have hfirst := hfailure.step (.deliver _ [.changed file] [] (.failed "queue overflow") rfl rfl)
  have hsecond := hfirst.step (.deliver _ [] [] (.changed file) rfl rfl)
  have hpassed := hsecond.step (.receive _ ⟨[.changed file], .idle⟩ rfl rfl)
  have hreceived := hpassed.step (.receive _ ⟨[], .settling file⟩ rfl rfl)
  have hdrained := hreceived.step (.drain _ ⟨[], .reporting [file]⟩ rfl rfl rfl)
  have hread := hdrained.step (.read _ file [] rfl rfl rfl)
  have hagain := hread.step (.write _ file (answers ";TIME:30") (hothers _ _))
  have hreported := hagain.step (.report _ _ ⟨[], .reporting []⟩ true rfl rfl rfl)
  refine ⟨_, hreported, rfl, List.mem_cons_self, ?_, rfl, ?_⟩
  · rw [State.latest_of_reports (State.reports_report _ _ _ _)]
    rfl
  · exact (no_update_lost hreported).1 rfl file List.mem_cons_self List.mem_cons_self

end Watch

end PrintJob

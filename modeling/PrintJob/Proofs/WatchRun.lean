/-
# Watching as a system of steps

While files are watched, three parties act on their own: whoever writes the files, the
watcher that notices the writes and fails now and then, and the loop. `Step` says what each
of them can do at any time, so that a run is any interleaving of the three.

* The events of the watcher are *underway* for a while before they are in the queue, and they
  may overtake one another. Every write to a watched file sends an event on its way.
* The loop takes the events out of the queue one by one, also while more of them arrive, and
  reads the files of a batch one by one. A file can be written between being read and being
  reported.
* The report of a file can be refused. The loop stops then and takes no further part.

A file is *awaited* if an event for it is due or if it is in the batch. Steps lose no awaited
file other than by reporting it (`Step.awaits`).
-/
import PrintJob.Proofs.ChangedFiles
import Mathlib.Logic.Relation
import Mathlib.Tactic.Tauto

namespace PrintJob

namespace Watch

/-! ## The moves of the loop -/

/-- What the loop does when it takes an event: a file is to be reported, or a failure of the
watcher is left behind. -/
theorem Loop.receive_cases {loop next : Loop} (h : loop.receive = some next) :
    loop.phase = .idle ∧
      ((∃ file, loop.queue = .changed file :: next.queue ∧ next.phase = .settling file) ∨
        ∃ message, loop.queue = .failed message :: next.queue ∧ next.phase = .idle) := by
  obtain ⟨queue, phase⟩ := loop
  cases phase with
  | settling first => cases h
  | reporting files => cases h
  | idle =>
    refine ⟨rfl, ?_⟩
    cases queue with
    | nil => cases h
    | cons event rest =>
      cases event with
      | changed file =>
        cases h
        exact Or.inl ⟨file, rfl, rfl⟩
      | failed message =>
        cases h
        exact Or.inr ⟨message, rfl, rfl⟩

/-- What the loop does when it has waited: all files with an event are to be reported. -/
theorem Loop.drain_cases {loop next : Loop} (h : loop.drain = some next) :
    ∃ first, loop.phase = .settling first ∧ next.queue = [] ∧
      next.phase = .reporting (changedFiles (.changed first :: loop.queue)) := by
  obtain ⟨queue, phase⟩ := loop
  cases phase with
  | idle => cases h
  | reporting files => cases h
  | settling first =>
    cases h
    exact ⟨first, rfl, rfl, rfl⟩

/-- What the loop does with a batch: it reports the next file, or is done with all of them. -/
theorem Loop.report_cases {loop next : Loop} {reported : Option PathParts}
    (h : loop.report = some (next, reported)) :
    next.queue = loop.queue ∧
      ((∃ file rest, loop.phase = .reporting (file :: rest) ∧ next.phase = .reporting rest ∧
          reported = some file) ∨
        (loop.phase = .reporting [] ∧ next.phase = .idle ∧ reported = none)) := by
  obtain ⟨queue, phase⟩ := loop
  cases phase with
  | idle => cases h
  | settling first => cases h
  | reporting files =>
    cases files with
    | nil =>
      cases h
      exact ⟨rfl, Or.inr ⟨rfl, rfl, rfl⟩⟩
    | cons file rest =>
      cases h
      exact ⟨rfl, Or.inl ⟨file, rest, rfl, rfl, rfl⟩⟩

/-- The files that wait in a phase of the loop. -/
def Phase.files : Phase → List PathParts
  | .idle => []
  | .settling first => [first]
  | .reporting files => files

/-- The files that are left of a batch in a phase of the loop. -/
def Phase.left : Phase → List PathParts
  | .idle => []
  | .settling _ => []
  | .reporting files => files

/-! ## States -/

/-- A file as it was read, and the report that is made of what was read. -/
structure Reading where
  file : PathParts
  content : Except ReadError (List Char)
  report : FileReport

/-- The reading of a file as it is at the moment. -/
def Reading.now (fs : FileSystem) (settings : EstimatorSettings) (file : PathParts) :
    Reading where
  file := file
  content := fs.readText file.toPath
  report := analyzeFile fs settings file.toPath

/-- The reading of a file depends on nothing but its content. -/
theorem Reading.now_congr {old new : FileSystem} {file : PathParts}
    (h : new.readText file.toPath = old.readText file.toPath) (settings : EstimatorSettings) :
    Reading.now new settings file = Reading.now old settings file := by
  rw [Reading.now, Reading.now, analyzeFile, analyzeFile, h]

/-- All that is going on while files are watched. -/
structure State where
  /-- The files as they are at the moment. -/
  fs : FileSystem
  /-- The files that have been written so far. -/
  written : List PathParts
  /-- The events that the watcher has sent and that are not in the queue yet. -/
  underway : List Event
  loop : Loop
  /-- The events that the loop has taken for the next batch, after the first one. -/
  taken : List Event
  /-- The file that has been read and is not reported yet. -/
  inHand : Option Reading
  /-- The reports of the batches before the latest. -/
  earlier : List (List Reading)
  /-- The reports of the latest batch. -/
  current : List Reading
  /-- Whether a report was refused. -/
  stopped : Bool

namespace State

/-- The state before anything has happened. -/
def start (fs : FileSystem) : State where
  fs := fs
  written := []
  underway := []
  loop := .start
  taken := []
  inHand := none
  earlier := []
  current := []
  stopped := false

/-- The reports of each batch, the latest batch last. -/
def batches (s : State) : List (List Reading) := s.earlier ++ [s.current]

/-- All reports, the latest last. -/
def reports (s : State) : List Reading := s.batches.flatten

/-- The latest report of a file. -/
def latest (s : State) (file : PathParts) : Option Reading :=
  (s.reports.filter fun reading => reading.file = file).getLast?

/-- An event for the file is about to be delivered or is queued. -/
def Due (s : State) (file : PathParts) : Prop :=
  .changed file ∈ s.underway ∨ .changed file ∈ s.loop.queue

/-- The file waits in the batch that is being collected or reported. -/
def InBatch (s : State) (file : PathParts) : Prop :=
  .changed file ∈ s.taken ∨ file ∈ s.loop.phase.files

/-- The file will be reported without being written again. -/
def Awaits (s : State) (file : PathParts) : Prop := s.Due file ∨ s.InBatch file

end State

/-! ## Steps -/

/-- What can happen next, in any order, when the files `watched` are watched. -/
inductive Step (watched : List PathParts) (settings : EstimatorSettings) : State → State → Prop
  /-- A file is written, which changes no other watched file. If the file is watched, an event
  is underway from then on. -/
  | write (s : State) (file : PathParts) (fs : FileSystem)
      (others : ∀ other ∈ watched, other ≠ file →
        fs.readText other.toPath = s.fs.readText other.toPath) :
      Step watched settings s
        { s with
          fs := fs
          written := file :: s.written
          underway := s.underway ++ eventsOf watched file }
  /-- The watcher sends one more event about a file, as it does for a write that comes in
  several parts. -/
  | notice (s : State) (file : PathParts) :
      Step watched settings s { s with underway := s.underway ++ eventsOf watched file }
  /-- The watcher fails. -/
  | failure (s : State) (message : String) :
      Step watched settings s { s with underway := s.underway ++ [.failed message] }
  /-- An event arrives in the queue. -/
  | deliver (s : State) (before after : List Event) (event : Event)
      (running : s.stopped = false) (sent : s.underway = before ++ event :: after) :
      Step watched settings s
        { s with underway := before ++ after, loop := s.loop.deliver [event] }
  /-- The loop takes an event to begin with. -/
  | receive (s : State) (loop : Loop) (running : s.stopped = false)
      (move : s.loop.receive = some loop) :
      Step watched settings s { s with loop := loop }
  /-- The loop takes another event for the same batch. -/
  | take (s : State) (first : PathParts) (event : Event) (rest : List Event)
      (running : s.stopped = false) (settling : s.loop.phase = .settling first)
      (queued : s.loop.queue = event :: rest) :
      Step watched settings s
        { s with loop := ⟨rest, s.loop.phase⟩, taken := s.taken ++ [event] }
  /-- The loop finds the queue empty, and the batch is complete. -/
  | drain (s : State) (loop : Loop) (running : s.stopped = false) (empty : s.loop.queue = [])
      (move : Loop.drain ⟨s.taken, s.loop.phase⟩ = some loop) :
      Step watched settings s
        { s with
          loop := loop
          taken := []
          earlier := s.earlier ++ [s.current]
          current := [] }
  /-- The next file of the batch is read. -/
  | read (s : State) (file : PathParts) (rest : List PathParts) (running : s.stopped = false)
      (next : s.loop.phase = .reporting (file :: rest)) (free : s.inHand = none) :
      Step watched settings s { s with inHand := some (.now s.fs settings file) }
  /-- The file that was read is reported; the loop stops if the report is refused. -/
  | report (s : State) (reading : Reading) (loop : Loop) (accepted : Bool)
      (running : s.stopped = false) (held : s.inHand = some reading)
      (move : s.loop.report = some (loop, some reading.file)) :
      Step watched settings s
        { s with
          loop := loop
          inHand := none
          current := s.current ++ [reading]
          stopped := !accepted }
  /-- The batch is done. -/
  | finish (s : State) (loop : Loop) (running : s.stopped = false)
      (move : s.loop.report = some (loop, none)) :
      Step watched settings s { s with loop := loop }

/-- The states that a run can come to, whatever the files are at the beginning. -/
def Reachable (watched : List PathParts) (settings : EstimatorSettings) (s : State) : Prop :=
  ∃ fs, Relation.ReflTransGen (Step watched settings) (.start fs) s

variable {watched : List PathParts} {settings : EstimatorSettings} {s s' : State}

theorem Reachable.step (h : Reachable watched settings s) (hstep : Step watched settings s s') :
    Reachable watched settings s' := by
  obtain ⟨fs, hrun⟩ := h
  exact ⟨fs, hrun.tail hstep⟩

/-! ## What a step does to the reports -/

theorem State.reports_report (s : State) (loop : Loop) (reading : Reading) (stopped : Bool) :
    { s with
      loop := loop
      inHand := none
      current := s.current ++ [reading]
      stopped := stopped }.reports = s.reports ++ [reading] := by
  simp only [State.reports, State.batches, List.flatten_append, List.flatten_singleton,
    List.append_assoc]

theorem State.reports_drain (s : State) (loop : Loop) :
    { s with
      loop := loop
      taken := []
      earlier := s.earlier ++ [s.current]
      current := [] }.reports = s.reports := by
  simp only [State.reports, State.batches, List.flatten_append, List.flatten_singleton,
    List.append_nil]

/-- A step adds at most one report, and this only if no report was refused before: that of
the file that was read. -/
theorem Step.reports (h : Step watched settings s s') :
    s'.reports = s.reports ∨
      ∃ reading, s.stopped = false ∧ s.inHand = some reading ∧
        s'.reports = s.reports ++ [reading] := by
  cases h with
  | report reading loop accepted running held move =>
    exact Or.inr ⟨reading, running, held, s.reports_report loop reading (!accepted)⟩
  | drain loop running empty move => exact Or.inl (s.reports_drain loop)
  | _ => exact Or.inl rfl

/-- A refused report is the last one. -/
theorem Step.stopped (h : Step watched settings s s') (hstopped : s.stopped = true) :
    s'.stopped = true ∧ s'.reports = s.reports := by
  have hrunning : ∀ {P : Prop}, s.stopped = false → P := by
    intro P hfalse
    rw [hstopped] at hfalse
    cases hfalse
  cases h with
  | write file fs others => exact ⟨hstopped, rfl⟩
  | notice file => exact ⟨hstopped, rfl⟩
  | failure message => exact ⟨hstopped, rfl⟩
  | deliver before after event running sent => exact hrunning running
  | receive loop running move => exact hrunning running
  | take first event rest running settling queued => exact hrunning running
  | drain loop running empty move => exact hrunning running
  | read file rest running next free => exact hrunning running
  | report reading loop accepted running held move => exact hrunning running
  | finish loop running move => exact hrunning running

/-- No more reports follow, however the run goes on. -/
theorem reports_of_stopped (hrun : Relation.ReflTransGen (Step watched settings) s s')
    (hstopped : s.stopped = true) : s'.stopped = true ∧ s'.reports = s.reports := by
  induction hrun with
  | refl => exact ⟨hstopped, rfl⟩
  | tail _ hstep ih =>
    obtain ⟨hnext, hreports⟩ := hstep.stopped ih.1
    exact ⟨hnext, hreports.trans ih.2⟩

/-! ## The loop on its own -/

/-- The loop can take all events that are queued while it collects a batch. -/
theorem takeAll (hrunning : s.stopped = false) {first : PathParts} {queue : List Event}
    (hloop : s.loop = ⟨queue, .settling first⟩) :
    Relation.ReflTransGen (Step watched settings) s
      { s with loop := ⟨[], .settling first⟩, taken := s.taken ++ queue } := by
  induction queue generalizing s with
  | nil => rw [List.append_nil, ← hloop]
  | cons event rest ih =>
    have hphase : s.loop.phase = .settling first := by rw [hloop]
    have hqueue : s.loop.queue = event :: rest := by rw [hloop]
    have htake : Step watched settings s _ := .take s first event rest hrunning hphase hqueue
    rw [hphase] at htake
    have hrest := ih (s := { s with
      loop := ⟨rest, .settling first⟩, taken := s.taken ++ [event] }) hrunning rfl
    rw [List.append_assoc] at hrest
    exact .head htake hrest

/-- **What the loop does next is a run of steps** if nothing comes in between: it takes an
event, or all of them for a batch, or it reads the next file and reports it as it is, or it
is done with the batch. -/
theorem run_of_next (hrunning : s.stopped = false) (htaken : s.taken = [])
    (hfree : s.inHand = none) {next : Loop} {reported : Option PathParts}
    (h : s.loop.next = some (next, reported)) :
    ∃ s', Relation.ReflTransGen (Step watched settings) s s' ∧ s'.loop = next ∧
      s'.stopped = false ∧ s'.taken = [] ∧ s'.inHand = none ∧
      s'.reports = s.reports ++ reported.toList.map (Reading.now s.fs settings) := by
  rw [Loop.next] at h
  cases hphase : s.loop.phase with
  | idle =>
    rw [hphase] at h
    obtain ⟨loop, hmove, hnext⟩ := Option.map_eq_some_iff.mp h
    cases hnext
    have hstep : Step watched settings s _ := .receive s next hrunning hmove
    exact ⟨_, .single hstep, rfl, hrunning, htaken, hfree, (List.append_nil _).symm⟩
  | settling first =>
    rw [hphase] at h
    obtain ⟨loop, hmove, hnext⟩ := Option.map_eq_some_iff.mp h
    cases hnext
    have hloop : s.loop = ⟨s.loop.queue, .settling first⟩ := by rw [← hphase]
    have htakes : Relation.ReflTransGen (Step watched settings) s _ := takeAll hrunning hloop
    rw [htaken, List.nil_append] at htakes
    have hdrain : Loop.drain ⟨s.loop.queue, .settling first⟩ = some next := by
      rw [← hphase]
      exact hmove
    refine ⟨_, htakes.tail (.drain _ next hrunning rfl hdrain), rfl, hrunning, rfl, hfree, ?_⟩
    rw [State.reports_drain]
    exact (List.append_nil _).symm
  | reporting files =>
    rw [hphase] at h
    have hmove : s.loop.report = some (next, reported) := h
    obtain ⟨-, ⟨file, rest, hfiles, -, hfile⟩ | ⟨-, -, hnone⟩⟩ := Loop.report_cases hmove
    · subst hfile
      have hread : Step watched settings s _ := .read s file rest hrunning hfiles hfree
      have hreport : Step watched settings { s with inHand := some (.now s.fs settings file) } _ :=
        .report _ (.now s.fs settings file) next true hrunning rfl hmove
      refine ⟨_, .tail (.single hread) hreport, rfl, rfl, htaken, rfl, ?_⟩
      rw [State.reports_report]
      rfl
    · subst hnone
      have hstep : Step watched settings s _ := .finish s next hrunning hmove
      exact ⟨_, .single hstep, rfl, hrunning, htaken, hfree, (List.append_nil _).symm⟩

/-! ## What a step does to the files that are awaited -/

section Awaits

variable {file : PathParts} {loop : Loop}

theorem State.awaits_iff :
    s.Awaits file ↔ (.changed file ∈ s.underway ∨ .changed file ∈ s.loop.queue) ∨
      (.changed file ∈ s.taken ∨ file ∈ s.loop.phase.files) :=
  Iff.rfl

theorem State.awaits_send (s : State) (events : List Event) :
    { s with underway := s.underway ++ events }.Awaits file ↔
      s.Awaits file ∨ .changed file ∈ events := by
  rw [State.awaits_iff, State.awaits_iff, List.mem_append]
  tauto

theorem State.awaits_deliver {before after : List Event} {event : Event}
    (h : s.underway = before ++ event :: after) :
    { s with underway := before ++ after, loop := s.loop.deliver [event] }.Awaits file ↔
      s.Awaits file := by
  rw [State.awaits_iff, State.awaits_iff, h, Loop.deliver]
  simp only [List.mem_append, List.mem_cons, List.not_mem_nil]
  tauto

theorem State.awaits_receive (h : s.loop.receive = some loop) :
    { s with loop := loop }.Awaits file ↔ s.Awaits file := by
  obtain ⟨hidle, ⟨first, hqueue, hphase⟩ | ⟨message, hqueue, hphase⟩⟩ := Loop.receive_cases h
  · rw [State.awaits_iff, State.awaits_iff, hidle, hqueue, hphase]
    simp only [Phase.files, List.mem_cons, List.not_mem_nil, Event.changed.injEq]
    tauto
  · rw [State.awaits_iff, State.awaits_iff, hidle, hqueue, hphase]
    simp only [List.mem_cons, reduceCtorEq]
    tauto

theorem State.awaits_take {event : Event} {rest : List Event}
    (h : s.loop.queue = event :: rest) :
    { s with loop := ⟨rest, s.loop.phase⟩, taken := s.taken ++ [event] }.Awaits file ↔
      s.Awaits file := by
  rw [State.awaits_iff, State.awaits_iff, h]
  simp only [List.mem_append, List.mem_cons, List.not_mem_nil]
  tauto

theorem State.awaits_drain (hempty : s.loop.queue = [])
    (h : Loop.drain ⟨s.taken, s.loop.phase⟩ = some loop) :
    { s with
      loop := loop
      taken := []
      earlier := s.earlier ++ [s.current]
      current := [] }.Awaits file ↔ s.Awaits file := by
  obtain ⟨first, hfirst, hqueue, hphase⟩ := Loop.drain_cases h
  have hsettling : s.loop.phase = .settling first := hfirst
  rw [State.awaits_iff, State.awaits_iff, hempty, hsettling, hqueue, hphase]
  simp only [Phase.files, mem_changedFiles, List.mem_cons, List.not_mem_nil,
    Event.changed.injEq]
  tauto

theorem State.awaits_report {reading : Reading} {stopped : Bool}
    (h : s.loop.report = some (loop, some reading.file)) :
    s.Awaits file ↔ file = reading.file ∨
      { s with
        loop := loop
        inHand := none
        current := s.current ++ [reading]
        stopped := stopped }.Awaits file := by
  obtain ⟨hqueue, ⟨next, rest, hreporting, hphase, hnext⟩ | ⟨-, -, hnone⟩⟩ := Loop.report_cases h
  · cases hnext
    rw [State.awaits_iff, State.awaits_iff, hreporting, hqueue, hphase]
    simp only [Phase.files, List.mem_cons]
    tauto
  · cases hnone

theorem State.awaits_finish (h : s.loop.report = some (loop, none)) :
    { s with loop := loop }.Awaits file ↔ s.Awaits file := by
  obtain ⟨hqueue, ⟨next, rest, -, -, hsome⟩ | ⟨hreporting, hphase, -⟩⟩ := Loop.report_cases h
  · cases hsome
  · rw [State.awaits_iff, State.awaits_iff, hreporting, hqueue, hphase]
    exact Iff.rfl

end Awaits

/-- **A file that is awaited stays awaited until it is reported**, whatever happens, and also
if the watcher fails. -/
theorem Step.awaits (h : Step watched settings s s') {file : PathParts} (hfile : s.Awaits file) :
    s'.Awaits file ∨ ∃ reading, reading.file = file ∧ s'.reports = s.reports ++ [reading] := by
  cases h with
  | write other fs others => exact Or.inl ((State.awaits_send s _).mpr (Or.inl hfile))
  | notice other => exact Or.inl ((State.awaits_send s _).mpr (Or.inl hfile))
  | failure message => exact Or.inl ((State.awaits_send s _).mpr (Or.inl hfile))
  | deliver before after event running sent => exact Or.inl ((State.awaits_deliver sent).mpr hfile)
  | receive loop running move => exact Or.inl ((State.awaits_receive move).mpr hfile)
  | take first event rest running settling queued =>
    exact Or.inl ((State.awaits_take queued).mpr hfile)
  | drain loop running empty move => exact Or.inl ((State.awaits_drain empty move).mpr hfile)
  | read next rest running hnext free => exact Or.inl hfile
  | report reading loop accepted running held move =>
    rcases (State.awaits_report move).mp hfile with hreported | hrest
    · exact Or.inr ⟨reading, hreported.symm, s.reports_report loop reading (!accepted)⟩
    · exact Or.inl hrest
  | finish loop running move => exact Or.inl ((State.awaits_finish move).mpr hfile)

theorem mem_eventsOf {file written : PathParts} :
    .changed file ∈ eventsOf watched written ↔ file = written ∧ file ∈ watched := by
  rw [eventsOf]
  split
  · next hwatched =>
    rw [List.mem_singleton, Event.changed.injEq]
    constructor
    · rintro rfl
      exact ⟨rfl, List.contains_iff_mem.mp hwatched⟩
    · rintro ⟨hfile, -⟩
      exact hfile
  · next hwatched =>
    constructor
    · intro hnil
      cases hnil
    · rintro ⟨rfl, hmem⟩
      exact absurd (List.contains_iff_mem.mpr hmem) hwatched

/-- A file comes to be awaited only if it is watched. -/
theorem Step.of_awaits (h : Step watched settings s s') {file : PathParts}
    (hfile : s'.Awaits file) : s.Awaits file ∨ file ∈ watched := by
  cases h with
  | write other fs others =>
    rcases (State.awaits_send s _).mp hfile with hbefore | hevent
    · exact Or.inl hbefore
    · exact Or.inr (mem_eventsOf.mp hevent).2
  | notice other =>
    rcases (State.awaits_send s _).mp hfile with hbefore | hevent
    · exact Or.inl hbefore
    · exact Or.inr (mem_eventsOf.mp hevent).2
  | failure message =>
    rcases (State.awaits_send s _).mp hfile with hbefore | hevent
    · exact Or.inl hbefore
    · cases List.mem_singleton.mp hevent
  | deliver before after event running sent => exact Or.inl ((State.awaits_deliver sent).mp hfile)
  | receive loop running move => exact Or.inl ((State.awaits_receive move).mp hfile)
  | take first event rest running settling queued =>
    exact Or.inl ((State.awaits_take queued).mp hfile)
  | drain loop running empty move => exact Or.inl ((State.awaits_drain empty move).mp hfile)
  | read next rest running hnext free => exact Or.inl hfile
  | report reading loop accepted running held move =>
    exact Or.inl ((State.awaits_report move).mpr (Or.inr hfile))
  | finish loop running move => exact Or.inl ((State.awaits_finish move).mp hfile)

end Watch

end PrintJob

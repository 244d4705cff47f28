/-
# Files analysed by tasks at the same time

For every path a task is started. The tasks run on their own: each of them reads its file
and then makes the report of what it has read, and at any time another one may get on
instead. The collector starts all tasks and then asks one after another for its report, in
the order of the paths, so that a task which is done early waits to be asked. `Step` says
what can happen next, and a run is any sequence of steps.

* Every step is one of four for its path, so a run comes to an end
  (`Step.stepsTaken`, `Sound.stepsTaken_le`).
* A run can only end when all reports are collected, and these are then the reports of the
  paths, one for each and in their order (`Sound.collected_of_final`).
-/
import Mathlib.Data.List.Infix
import Mathlib.Logic.Relation
import PrintJob.Analysis

namespace PrintJob

/-! ## One file -/

/-- What is said about a file, given what reading it has led to. -/
def outcomeOf (settings : EstimatorSettings) (path : String)
    (content : Except ReadError (List Char)) : Except Failure Report :=
  match content with
  | .ok text => .ok (Document.report ⟨text, settings⟩)
  | .error cause => .error (readFailure path cause)

/-- The report of a file depends on nothing but its path and its content. -/
theorem analyzeFile_eq (fs : FileSystem) (settings : EstimatorSettings) (path : String) :
    analyzeFile fs settings path = ⟨path, outcomeOf settings path (fs.readText path)⟩ := rfl

namespace Tasks

/-! ## Tasks and the collector

A task always comes to its report: nothing stops it from outside, and making the report of a
text cannot fail. -/

/-- How far a task has come. -/
inductive Progress where
  | started
  | hasRead (content : Except ReadError (List Char))
  | complete (report : FileReport)

/-- The task of a path. -/
structure Task where
  path : String
  progress : Progress

namespace Task

/-- What a task does when it gets on; a task that is complete does nothing more. -/
def next (fs : FileSystem) (settings : EstimatorSettings) (task : Task) : Option Task :=
  match task.progress with
  | .started => some ⟨task.path, .hasRead (fs.readText task.path)⟩
  | .hasRead content =>
    some ⟨task.path, .complete ⟨task.path, outcomeOf settings task.path content⟩⟩
  | .complete _ => none

/-- Whether the task has read its file, now or earlier. -/
def pastReading (task : Task) : Bool :=
  match task.progress with
  | .started => false
  | _ => true

/-- Whether the task has made its report. -/
def isComplete (task : Task) : Bool :=
  match task.progress with
  | .complete _ => true
  | _ => false

/-- What the task holds is what its file says. -/
def IsHonest (fs : FileSystem) (settings : EstimatorSettings) (task : Task) : Prop :=
  match task.progress with
  | .started => True
  | .hasRead content => content = fs.readText task.path
  | .complete report => report = analyzeFile fs settings task.path

end Task

/-- All that is going on while files are analysed. -/
structure State where
  /-- The paths for which no task has been started yet. -/
  waiting : List String
  /-- The tasks, in the order in which they were started. -/
  tasks : List Task
  /-- The reports that the collector has got, in the order in which it got them. -/
  collected : List FileReport

/-- The state before anything has happened. -/
def State.start (paths : List String) : State := ⟨paths, [], []⟩

/-- The number of steps that it takes to come to a state: one for each task that was
started, has read, or has made its report, and one for each report that was collected. -/
def State.stepsTaken (s : State) : Nat :=
  s.tasks.length + s.tasks.countP Task.pastReading + s.tasks.countP Task.isComplete +
    s.collected.length

/-! ## Steps -/

/-- What can happen next, in any order. -/
inductive Step (fs : FileSystem) (settings : EstimatorSettings) : State → State → Prop
  /-- The task of the next path is started. -/
  | start (s : State) (path : String) (rest : List String) (next : s.waiting = path :: rest) :
      Step fs settings s { s with waiting := rest, tasks := s.tasks ++ [⟨path, .started⟩] }
  /-- One of the tasks gets on. -/
  | advance (s : State) (before after : List Task) (task later : Task)
      (running : s.tasks = before ++ task :: after) (move : task.next fs settings = some later) :
      Step fs settings s { s with tasks := before ++ later :: after }
  /-- The collector gets the report that it waits for. It asks for reports only when all
  tasks have been started. -/
  | collect (s : State) (path : String) (report : FileReport) (allStarted : s.waiting = [])
      (asked : s.tasks[s.collected.length]? = some ⟨path, .complete report⟩) :
      Step fs settings s { s with collected := s.collected ++ [report] }

/-- The states that a run over some paths can come to. -/
def Reachable (fs : FileSystem) (settings : EstimatorSettings) (paths : List String)
    (s : State) : Prop :=
  Relation.ReflTransGen (Step fs settings) (.start paths) s

/-- Nothing more can happen. -/
def IsFinal (fs : FileSystem) (settings : EstimatorSettings) (s : State) : Prop :=
  ∀ s', ¬ Step fs settings s s'

variable {fs : FileSystem} {settings : EstimatorSettings} {paths : List String} {s s' : State}

/-! ## What one task does -/

theorem Task.path_next {task later : Task} (h : task.next fs settings = some later) :
    later.path = task.path := by
  obtain ⟨path, progress⟩ := task
  cases progress <;> cases h <;> rfl

/-- A task that was honest is so after it has got on. -/
theorem Task.IsHonest.next {task later : Task} (hhonest : task.IsHonest fs settings)
    (h : task.next fs settings = some later) : later.IsHonest fs settings := by
  obtain ⟨path, progress⟩ := task
  cases progress with
  | started =>
    cases h
    rfl
  | hasRead content =>
    cases h
    have hcontent : content = fs.readText path := hhonest
    show (⟨path, outcomeOf settings path content⟩ : FileReport) = analyzeFile fs settings path
    rw [hcontent, analyzeFile_eq]
  | complete report => cases h

/-- Only tasks that are complete cannot get on. -/
theorem Task.exists_complete {task : Task} (h : task.next fs settings = none) :
    ∃ report, task = ⟨task.path, .complete report⟩ := by
  obtain ⟨path, progress⟩ := task
  cases progress with
  | started => cases h
  | hasRead content => cases h
  | complete report => exact ⟨report, rfl⟩

/-! ## Every run comes to an end -/

/-- **Every step is one of four for its path.** -/
theorem Step.stepsTaken (h : Step fs settings s s') : s'.stepsTaken = s.stepsTaken + 1 := by
  cases h with
  | start path rest next =>
    simp only [State.stepsTaken, List.length_append, List.length_singleton, List.countP_append,
      List.countP_singleton, Task.pastReading, Task.isComplete, Bool.false_eq_true, if_false]
    omega
  | advance before after task later running move =>
    obtain ⟨path, progress⟩ := task
    simp only [State.stepsTaken, running, List.length_append, List.length_cons,
      List.countP_append, List.countP_cons]
    cases progress with
    | started =>
      cases move
      simp only [Task.pastReading, Task.isComplete, Bool.false_eq_true, if_false, if_true]
      omega
    | hasRead content =>
      cases move
      simp only [Task.pastReading, Task.isComplete, Bool.false_eq_true, if_false, if_true]
      omega
    | complete report => cases move
  | collect path report allStarted asked =>
    simp only [State.stepsTaken, List.length_append, List.length_singleton]
    omega

/-! ## What holds all the time -/

/-- What every run keeps: there is a task for each path in its place, no task holds anything
but what its own file says, and the reports that were collected are those of the first
paths. -/
structure Sound (fs : FileSystem) (settings : EstimatorSettings) (paths : List String)
    (s : State) : Prop where
  paths_eq : s.tasks.map Task.path ++ s.waiting = paths
  honest : ∀ task ∈ s.tasks, task.IsHonest fs settings
  collected : s.collected <+: paths.map (analyzeFile fs settings)

theorem sound_start : Sound fs settings paths (.start paths) where
  paths_eq := rfl
  honest := List.forall_mem_nil _
  collected := List.nil_prefix

namespace Sound

/-- The path of a task stands in the place of the task. -/
theorem getElem?_paths (hs : Sound fs settings paths s) {place : Nat} {task : Task}
    (h : s.tasks[place]? = some task) : paths[place]? = some task.path := by
  have hmap : (s.tasks.map Task.path)[place]? = some task.path := by
    rw [List.getElem?_map, h, Option.map_some]
  obtain ⟨hlt, -⟩ := List.getElem?_eq_some_iff.mp hmap
  rw [← hs.paths_eq, List.getElem?_append_left hlt, hmap]

/-- **Every step keeps what holds.** -/
theorem step (hs : Sound fs settings paths s) (h : Step fs settings s s') :
    Sound fs settings paths s' := by
  cases h with
  | start path rest next =>
    refine ⟨?_, ?_, hs.collected⟩
    · have hpaths := hs.paths_eq
      rw [next] at hpaths
      rw [← hpaths, List.map_append, List.append_assoc]
      rfl
    · intro task htask
      rcases List.mem_append.mp htask with hbefore | hnew
      · exact hs.honest task hbefore
      · rw [List.mem_singleton.mp hnew]
        trivial
  | advance before after task later running move =>
    have hhonest := hs.honest
    rw [running, List.forall_mem_append, List.forall_mem_cons] at hhonest
    refine ⟨?_, ?_, hs.collected⟩
    · have hpaths := hs.paths_eq
      rw [running, List.map_append, List.map_cons] at hpaths
      rw [← hpaths, List.map_append, List.map_cons, Task.path_next move]
    · obtain ⟨hbefore, htask, hafter⟩ := hhonest
      rw [List.forall_mem_append, List.forall_mem_cons]
      exact ⟨hbefore, htask.next move, hafter⟩
  | collect path report allStarted asked =>
    refine ⟨hs.paths_eq, hs.honest, ?_⟩
    have hreport : report = analyzeFile fs settings path :=
      hs.honest _ (List.mem_of_getElem? asked)
    have hnext : (paths.map (analyzeFile fs settings))[s.collected.length]? = some report := by
      rw [List.getElem?_map, hs.getElem?_paths asked, Option.map_some, hreport]
    obtain ⟨hlt, hget⟩ := List.getElem?_eq_some_iff.mp hnext
    rw [← hget]
    exact List.concat_get_prefix hs.collected hlt

/-- A run has at most four steps for each path. -/
theorem stepsTaken_le (hs : Sound fs settings paths s) : s.stepsTaken ≤ 4 * paths.length := by
  have htasks : s.tasks.length ≤ paths.length := by
    have hlength := congrArg List.length hs.paths_eq
    rw [List.length_append, List.length_map] at hlength
    omega
  have hcollected : s.collected.length ≤ paths.length := by
    have hlength := hs.collected.length_le
    rwa [List.length_map] at hlength
  have hread : s.tasks.countP Task.pastReading ≤ s.tasks.length := List.countP_le_length
  have hcomplete : s.tasks.countP Task.isComplete ≤ s.tasks.length := List.countP_le_length
  unfold State.stepsTaken
  omega

/-- **A run does not end before all reports are collected**: as long as there are tasks to be
started, one of them can be; as long as a task is not complete, it can get on; and when all
of them are complete, the collector can ask for what it lacks. -/
theorem collected_of_final (hs : Sound fs settings paths s) (hfinal : IsFinal fs settings s) :
    s.collected = paths.map (analyzeFile fs settings) := by
  have hwaiting : s.waiting = [] := by
    cases hrest : s.waiting with
    | nil => rfl
    | cons path rest => exact absurd (.start s path rest hrest) (hfinal _)
  have hcomplete : ∀ task ∈ s.tasks, task.next fs settings = none := by
    intro task htask
    obtain ⟨before, after, hsplit⟩ := List.append_of_mem htask
    cases hnext : task.next fs settings with
    | none => rfl
    | some later => exact absurd (.advance s before after task later hsplit hnext) (hfinal _)
  have hlength : s.tasks.length = paths.length := by
    have hpaths := congrArg List.length hs.paths_eq
    rw [hwaiting, List.append_nil, List.length_map] at hpaths
    exact hpaths
  refine hs.collected.eq_of_length (Nat.le_antisymm hs.collected.length_le ?_)
  rw [List.length_map]
  by_contra hshort
  have hlt : s.collected.length < s.tasks.length := by omega
  obtain ⟨report, htask⟩ := Task.exists_complete (hcomplete _ (List.getElem_mem hlt))
  exact hfinal _ (.collect s _ report hwaiting (htask ▸ List.getElem?_eq_getElem hlt))

end Sound

/-- **All invariants hold in every state that a run can come to.** -/
theorem sound_of_reachable (h : Reachable fs settings paths s) : Sound fs settings paths s := by
  induction h with
  | refl => exact sound_start
  | tail _ hstep ih => exact ih.step hstep

/-- No step is left when there have been four for each path. -/
theorem Sound.isFinal (hs : Sound fs settings paths s) (h : s.stepsTaken = 4 * paths.length) :
    IsFinal fs settings s := by
  intro s' hstep
  have hle := (hs.step hstep).stepsTaken_le
  rw [hstep.stepsTaken] at hle
  omega

/-- Every run can be continued until nothing more can happen. -/
theorem exists_final {s : State} (h : Reachable fs settings paths s) :
    ∃ s', Relation.ReflTransGen (Step fs settings) s s' ∧ IsFinal fs settings s' := by
  by_cases hfinal : IsFinal fs settings s
  · exact ⟨s, .refl, hfinal⟩
  · obtain ⟨next, hstep⟩ := not_forall_not.mp hfinal
    have hnext : Reachable fs settings paths next := h.tail hstep
    -- there are at most four steps for each path, and this was one of them
    have hle := (sound_of_reachable hnext).stepsTaken_le
    have hsteps := hstep.stepsTaken
    obtain ⟨last, hrun, hlast⟩ := exists_final hnext
    exact ⟨last, hrun.head hstep, hlast⟩
termination_by 4 * paths.length - s.stepsTaken

end Tasks

end PrintJob

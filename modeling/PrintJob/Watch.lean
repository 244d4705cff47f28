/-
# Watching files

Files are analysed again whenever they change. Changes arrive as events in a queue.
After the first event the loop waits for the writes to settle, takes all events that
have arrived in the meantime, and then reports every changed file once, in the order
of their paths.

* `Watch.target`: the file that a path stands for, which need not exist yet.
* `Watch.receive`, `Watch.drain`, `Watch.report`: the three moves of the loop.
-/
import PrintJob.Analysis

namespace PrintJob

namespace Watch

/-! ## Targets -/

/-- Why a file cannot be watched. -/
inductive WatchError where
  /-- The path does not end in a name. -/
  | notAFile (path : String)
  /-- The directory of the file is not there. -/
  | noDirectory (path : String) (cause : ReadError)
deriving DecidableEq

/-- The messages about an error, from the context to the cause. -/
def WatchError.failure : WatchError → Failure
  | .notAFile path => ⟨["Not a file path: " ++ path]⟩
  | .noDirectory path cause => ⟨["Failed to resolve directory of " ++ path, cause.message]⟩

/-- The file that a path stands for: its name in the true path of its directory. -/
def target (fs : FileSystem) (path : String) : Except WatchError PathParts :=
  match fileName? path with
  | none => .error (.notAFile path)
  | some name =>
    match fs.canonical (parentPath path) with
    | .ok parts => .ok (parts ++ [name])
    | .error cause => .error (.noDirectory path cause)

/-- The files that paths stand for, or the error of the first path that has one. -/
def targets (fs : FileSystem) (paths : List String) : Except WatchError (List PathParts) :=
  paths.mapM (target fs)

/-! ## Events -/

/-- What can arrive in the queue. -/
inductive Event where
  | changed (file : PathParts)
  /-- The watcher itself failed; this concerns no file. -/
  | failed (message : String)
deriving DecidableEq

/-- The file that an event is about. -/
def Event.file? : Event → Option PathParts
  | .changed file => some file
  | .failed _ => none

/-- The events that a write to a file causes: one if the file is watched. -/
def eventsOf (watched : List PathParts) (file : PathParts) : List Event :=
  if watched.contains file then [.changed file] else []

/-- Puts a file into an ordered list without repetitions. -/
def insertFile (file : PathParts) : List PathParts → List PathParts
  | [] => [file]
  | other :: rest =>
    if file = other then other :: rest
    else if file < other then file :: other :: rest
    else other :: insertFile file rest

/-- The files that events are about, in order and without repetitions. -/
def changedFiles (events : List Event) : List PathParts :=
  (events.filterMap Event.file?).foldl (fun files file => insertFile file files) []

/-! ## The loop -/

/-- What the loop is doing. -/
inductive Phase where
  /-- It waits for an event. -/
  | idle
  /-- It waits for the writes after the first event to settle. -/
  | settling (first : PathParts)
  /-- It reports the files that are left. -/
  | reporting (files : List PathParts)
deriving DecidableEq

/-- The loop and the queue in front of it, the oldest event first. -/
structure Loop where
  queue : List Event
  phase : Phase
deriving DecidableEq

/-- The loop before anything has happened. -/
def Loop.start : Loop := ⟨[], .idle⟩

/-- Events arrive. -/
def Loop.deliver (loop : Loop) (events : List Event) : Loop :=
  { loop with queue := loop.queue ++ events }

/-- An idle loop takes the oldest event; a failure of the watcher changes nothing else. -/
def Loop.receive (loop : Loop) : Option Loop :=
  match loop.phase, loop.queue with
  | .idle, .changed file :: rest => some ⟨rest, .settling file⟩
  | .idle, .failed _ :: rest => some ⟨rest, .idle⟩
  | _, _ => none

/-- A loop that has waited takes all events there are. -/
def Loop.drain (loop : Loop) : Option Loop :=
  match loop.phase with
  | .settling first => some ⟨[], .reporting (changedFiles (.changed first :: loop.queue))⟩
  | _ => none

/-- A loop with files to report reports the next one, or is idle again. -/
def Loop.report (loop : Loop) : Option (Loop × Option PathParts) :=
  match loop.phase with
  | .reporting (file :: rest) => some (⟨loop.queue, .reporting rest⟩, some file)
  | .reporting [] => some (⟨loop.queue, .idle⟩, none)
  | _ => none

/-- The next move of a loop for which no time passes, with the file to report. -/
def Loop.next (loop : Loop) : Option (Loop × Option PathParts) :=
  match loop.phase with
  | .idle => loop.receive.map (·, none)
  | .settling _ => loop.drain.map (·, none)
  | .reporting _ => loop.report

/-- The files that a loop reports until it waits for an event that does not come; `fuel`
bounds the number of moves. -/
def Loop.run : Nat → Loop → List PathParts
  | 0, _ => []
  | fuel + 1, loop =>
    match loop.next with
    | none => []
    | some (next, file) => file.toList ++ Loop.run fuel next

/-- More moves than a loop makes before it waits again. -/
def Loop.moves (loop : Loop) : Nat := 4 * loop.queue.length + 4

/-! ## Reports -/

/-- The reports after writes to some files, when all of them settle together. -/
def reportsAfter (fs : FileSystem) (settings : EstimatorSettings) (watched touched : List PathParts) :
    List FileReport :=
  let loop := Loop.start.deliver (touched.flatMap (eventsOf watched))
  (loop.run loop.moves).map fun file => analyzeFile fs settings file.toPath

end Watch

end PrintJob

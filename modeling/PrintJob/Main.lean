/-
# The program

Reads the arguments and the files they name, prints what `runProgram` says, and goes
on with watching where that is asked for. All decisions are made by the functions of
the other modules; here the system is asked and told.
-/
import PrintJob.CommandLine

namespace PrintJob

namespace Main

/-! ## Asking the system -/

/-- The reason of a failed call. The system gives the number of an error with either
sign. -/
def reasonOf (error : IO.Error) : ReadError :=
  match error with
  | .noFileOrDirectory .. => .notFound
  | .permissionDenied .. => .other "Permission denied (os error 13)"
  | .inappropriateType _ code _ =>
    if code = 20 ∨ -code = 20 then .notDirectory
    else if code = 21 ∨ -code = 21 then .isDirectory
    else .other (toString error)
  | _ => .other (toString error)

/-- The text of a file as it is now. -/
def readNow (path : String) : IO (Except ReadError (List Char)) := do
  try
    let content ← IO.FS.readBinFile path
    match String.fromUTF8? content with
    | some text => return .ok text.toList
    | none => return .error .notText
  catch error => return .error (reasonOf error)

/-- The one true path of what a path leads to. -/
def canonicalNow (path : String) : IO (Except ReadError PathParts) := do
  try
    return .ok (pathParts (toString (← IO.FS.realPath path)))
  catch error => return .error (reasonOf error)

/-- Whether a path leads to a file. -/
def isFileNow (path : String) : IO Bool := do
  try
    let real ← IO.FS.realPath path
    match (← real.metadata).type with
    | .file => return true
    | _ => return false
  catch _ => return false

/-- When a file was last written. -/
def modifiedNow (path : String) : IO (Option IO.FS.SystemTime) := do
  try
    let real ← IO.FS.realPath path
    return some (← real.metadata).modified
  catch _ => return none

/-- What the system answers about some paths and their directories. -/
def snapshot (paths : List String) : IO FileSystem := do
  let texts ← paths.mapM fun path => return (path, ← readNow path)
  let kinds ← paths.mapM fun path => return (path, ← isFileNow path)
  let places ← (paths.map parentPath).mapM fun path => return (path, ← canonicalNow path)
  return {
    readText := fun path => (texts.lookup path).getD (.error .notFound)
    isFile := fun path => (kinds.lookup path).getD false
    canonical := fun path => (places.lookup path).getD (.error .notFound) }

/-- The settings file of the user. -/
def userFile : IO (Option String) := do
  let configured := (← IO.getEnv "XDG_CONFIG_HOME").filter isAbsolute
  let home := (← IO.getEnv "HOME").map (· ++ "/.config")
  return (configured.or home).map (· ++ "/gcode-analyzer/config.toml")

/-- The paths of the files that a run with these arguments may read. -/
def pathsOf (userPath : Option String) (argv : List String) : List String :=
  match Arguments.parse argv with
  | .ok arguments => userPath.toList ++ arguments.config.toList ++ arguments.files
  | .error _ => []

/-! ## Watching -/

/-- How long writes are given to settle, in milliseconds. -/
def settleDelay : UInt32 := 250

/-- The last writes of watched files. -/
abbrev Times := List (PathParts × Option IO.FS.SystemTime)

/-- The last writes of some files as they are now. -/
def timesNow (files : List PathParts) : IO Times :=
  files.mapM fun file => return (file, ← modifiedNow file.toPath)

/-- The events for files that exist and were written since. -/
def eventsSince (before after : Times) : List Watch.Event :=
  (after.filter fun (file, time) =>
    time.isSome && (before.lookup file).join != time).map fun (file, _) => .changed file

/-- Prints the report of one file. -/
def printReport (configuration : Configuration) (file : PathParts) : IO Unit := do
  let path := file.toPath
  let fs ← snapshot [path]
  IO.print (render configuration.format [analyzeFile fs configuration.settings path])
  (← IO.getStdout).flush

/-- Watches files without end. -/
partial def watch (configuration : Configuration) (files : List PathParts) (times : Times)
    (loop : Watch.Loop) : IO Unit := do
  let wait := match loop.phase with
    | .reporting _ => false
    | _ => true
  -- between two reports of one batch no time is given away
  if wait then IO.sleep settleDelay
  let now ← timesNow files
  let delivered := loop.deliver (eventsSince times now)
  match delivered.next with
  | none => watch configuration files now delivered
  | some (next, file) =>
    if let some file := file then printReport configuration file
    watch configuration files now next

end Main

end PrintJob

open PrintJob in
/-- Runs the program with the arguments that stand after its name. -/
def main (args : List String) : IO UInt32 := do
  let argv := programName :: args
  let userPath ← Main.userFile
  let fs ← Main.snapshot (Main.pathsOf userPath argv)
  let outcome := runProgram fs userPath argv
  IO.print outcome.output
  (← IO.getStdout).flush
  IO.eprint outcome.diagnostics
  match outcome.ending with
  | .exit status => return UInt32.ofNat status
  | .watch configuration files =>
    Main.watch configuration files (← Main.timesNow files) .start
    return 0

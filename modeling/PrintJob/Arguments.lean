/-
# Command-line arguments

Arguments are read from left to right, and the first error ends the reading. A value
is checked late: an option or a run of files is *pending* until the next option, a
file after an option, or the end of the arguments. So an unknown option is reported
before a bad value that stands in front of it.

* `Arguments.parse`: the arguments, or the first error.
-/
import PrintJob.FeedPolicy
import PrintJob.Decimal.Reading
import PrintJob.Rendering

namespace PrintJob

/-- What the command line asks for. -/
structure Arguments where
  files : List String
  format : OutputFormat := .text
  /-- A settings file to apply after that of the user. -/
  config : Option String := none
  feedRate : Option Binary64 := none
  policy : Option FeedPolicy := none
  /-- Whether to analyse files again when they change. -/
  watch : Bool := false
  logLevel : String := "warn"
deriving DecidableEq

/-- Why reading the arguments ended early. -/
inductive ArgumentError where
  | displayHelp
  | displayVersion
  /-- An option that does not exist. -/
  | unknownArgument
  /-- A value that is missing, empty or none of those allowed. -/
  | invalidValue
  /-- A value that is no number. -/
  | valueValidation
  /-- An option that is given twice. -/
  | argumentConflict
  /-- A value for an option that takes none. -/
  | tooManyValues
  /-- No file is given. -/
  | missingRequiredArgument
deriving DecidableEq

/-! ## Options -/

/-- The options that take a value. -/
inductive ValueOption where
  | format
  | config
  | defaultFeedRate
  | zeroFeedPolicy
  | logLevel
deriving DecidableEq

/-- A long option. -/
inductive LongOption where
  | value (option : ValueOption)
  | watch
  | help
  | version
deriving DecidableEq

/-- The long option with a name. -/
def LongOption.ofName? (name : String) : Option LongOption :=
  match name with
  | "format" => some (.value .format)
  | "config" => some (.value .config)
  | "default-feed-rate" => some (.value .defaultFeedRate)
  | "zero-feed-policy" => some (.value .zeroFeedPolicy)
  | "log-level" => some (.value .logLevel)
  | "watch" => some .watch
  | "help" => some .help
  | "version" => some .version
  | _ => none

/-- The options that were given and checked. -/
structure GivenOptions where
  files : List String := []
  format : Option OutputFormat := none
  config : Option String := none
  feedRate : Option Binary64 := none
  policy : Option FeedPolicy := none
  watch : Bool := false
  logLevel : Option String := none

namespace GivenOptions

/-- A value for an option that may be given once; `read` checks it. -/
def once {α : Type} (earlier : Option α) (read : Except ArgumentError α) :
    Except ArgumentError (Option α) :=
  match earlier with
  | some _ => .error .argumentConflict
  | none => read.map some

/-- What reading a value gives, or the error for a value that cannot be read. -/
def orError {α : Type} (error : ArgumentError) : Option α → Except ArgumentError α
  | some a => .ok a
  | none => .error error

/-- A path, which is not empty. -/
def readPath (path : String) : Except ArgumentError String :=
  if path = "" then .error .invalidValue else .ok path

/-- Takes in the value of an option. -/
def set (given : GivenOptions) (option : ValueOption) (value : String) :
    Except ArgumentError GivenOptions :=
  match option with
  | .format => do
    let format ← once given.format (orError .invalidValue (OutputFormat.ofName? value))
    return { given with format := format }
  | .config => do
    let config ← once given.config (readPath value)
    return { given with config := config }
  | .defaultFeedRate => do
    let rate ← once given.feedRate (orError .valueValidation (Binary64.read value.toList))
    return { given with feedRate := rate }
  | .zeroFeedPolicy => do
    let policy ← once given.policy (orError .invalidValue (FeedPolicy.ofName? value))
    return { given with policy := policy }
  | .logLevel => do
    let level ← once given.logLevel (.ok value)
    return { given with logLevel := level }

/-- Takes in files. -/
def addFiles (given : GivenOptions) (paths : List String) : Except ArgumentError GivenOptions :=
  (paths.mapM readPath).map fun files => { given with files := given.files ++ files }

/-- The arguments that the options amount to; at least one file is needed. -/
def finish (given : GivenOptions) : Except ArgumentError Arguments :=
  if given.files.isEmpty then .error .missingRequiredArgument
  else .ok {
    files := given.files
    format := given.format.getD .text
    config := given.config
    feedRate := given.feedRate
    policy := given.policy
    watch := given.watch
    logLevel := given.logLevel.getD "warn" }

end GivenOptions

/-! ## Reading -/

/-- What is read but not yet checked. -/
inductive PendingArgument where
  | nothing
  | option (option : ValueOption) (value : Option String)
  | files (paths : List String)

/-- The form of an argument, told from its first characters. -/
inductive ArgumentForm where
  /-- Two dashes: all further arguments are files. -/
  | escape
  /-- A name after two dashes, and the value after the first equals sign. -/
  | long (name : String) (value : Option String)
  /-- Letters after one dash. -/
  | short (letters : List Char)
  | plain

/-- Splits a long option at the first equals sign. -/
def splitLong (cs : List Char) : ArgumentForm :=
  let name := String.ofList (cs.takeWhile (· != '='))
  match cs.dropWhile (· != '=') with
  | [] => .long name none
  | _ :: value => .long name (some (String.ofList value))

/-- The form of an argument. A single dash is a file. -/
def ArgumentForm.of (argument : String) : ArgumentForm :=
  match argument.toList with
  | ['-', '-'] => .escape
  | '-' :: '-' :: rest => splitLong rest
  | '-' :: c :: rest => .short (c :: rest)
  | _ => .plain

/-- How far the arguments have been read. -/
structure ArgumentProgress where
  given : GivenOptions := {}
  pending : PendingArgument := .nothing
  /-- Whether all further arguments are files. -/
  onlyFiles : Bool := false

namespace ArgumentProgress

/-- Checks what is pending. -/
def settle (progress : ArgumentProgress) : Except ArgumentError ArgumentProgress :=
  match progress.pending with
  | .nothing => .ok progress
  | .option _ none => .error .invalidValue
  | .option option (some value) => do
    return { progress with given := ← progress.given.set option value, pending := .nothing }
  | .files paths => do
    return { progress with given := ← progress.given.addFiles paths, pending := .nothing }

/-- Takes in a long option. -/
def long (progress : ArgumentProgress) (name : String) (value : Option String) :
    Except ArgumentError ArgumentProgress :=
  match LongOption.ofName? name, value with
  | none, _ => .error .unknownArgument
  | some (.value option), none => do
    return { ← progress.settle with pending := .option option none }
  | some (.value option), some value => do
    -- a value after an equals sign is checked at once, after what was pending
    let settled ← progress.settle
    return { settled with given := ← settled.given.set option value }
  | some _, some _ => .error .tooManyValues
  | some .watch, none => do
    let settled ← progress.settle
    if settled.given.watch then .error .argumentConflict
    else return { settled with given := { settled.given with watch := true } }
  | some .help, none => do
    let _ ← progress.settle
    .error .displayHelp
  | some .version, none => do
    let _ ← progress.settle
    .error .displayVersion

/-- Takes in letters after one dash; the two letters that mean something end the reading. -/
def short (progress : ArgumentProgress) (letters : List Char) :
    Except ArgumentError ArgumentProgress :=
  match letters with
  | 'h' :: _ => do
    let _ ← progress.settle
    .error .displayHelp
  | 'V' :: _ => do
    let _ ← progress.settle
    .error .displayVersion
  | _ => .error .unknownArgument

/-- Takes in a file. -/
def file (progress : ArgumentProgress) (path : String) : Except ArgumentError ArgumentProgress :=
  match progress.pending with
  | .files paths => .ok { progress with pending := .files (paths ++ [path]) }
  | _ => do return { ← progress.settle with pending := .files [path] }

/-- Takes in one argument. An option that wants a value takes the next argument that
does not look like an option. -/
def step (progress : ArgumentProgress) (argument : String) :
    Except ArgumentError ArgumentProgress :=
  if progress.onlyFiles then progress.file argument
  else match ArgumentForm.of argument with
    | .escape => .ok { progress with onlyFiles := true }
    | .long name value => progress.long name value
    | .short letters => progress.short letters
    | .plain =>
      match progress.pending with
      | .option option none => .ok { progress with pending := .option option (some argument) }
      | _ => progress.file argument

end ArgumentProgress

/-- The arguments after the name of the program. -/
def Arguments.parse (argv : List String) : Except ArgumentError Arguments := do
  let progress ← (argv.drop 1).foldlM ArgumentProgress.step {}
  (← progress.settle).given.finish

end PrintJob

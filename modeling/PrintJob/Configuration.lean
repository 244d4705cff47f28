/-
# Configuration

The settings of a run come in layers: the built-in ones, the settings file of the
user if there is one, the file given in the arguments, and last the arguments
themselves. A later layer replaces what it names, and only the outcome has to be
valid.

* `loadLayers`: the settings files in order, or the first error.
* `Configuration.load`: the outcome of all layers.
-/
import PrintJob.Arguments
import PrintJob.FileSystem
import PrintJob.SettingsFile

namespace PrintJob

/-- Why there is no configuration. -/
inductive ConfigurationError where
  /-- A settings file could not be read. -/
  | unreadable (path : String) (cause : ReadError)
  /-- A settings file is malformed. -/
  | malformed (path : String)
  /-- The outcome of all layers is not valid. -/
  | invalid (settings : EstimatorSettings)
deriving DecidableEq

/-- The messages about an error, from the context to the cause. -/
def ConfigurationError.failure : ConfigurationError → Failure
  | .unreadable path cause => ⟨["Failed to read config file: " ++ path, cause.message]⟩
  | .malformed path => ⟨["Failed to parse config file: " ++ path, "malformed settings"]⟩
  | .invalid settings => ⟨["Invalid estimator configuration", settings.invalidMessage]⟩

/-- What a run works with. -/
structure Configuration where
  files : List String
  format : OutputFormat
  watch : Bool
  logLevel : String
  settings : EstimatorSettings
  /-- The settings files that were applied, in order. -/
  sources : List String
deriving DecidableEq

/-! ## Layers -/

/-- The settings file at a path. -/
def loadFile (fs : FileSystem) (path : String) : Except ConfigurationError SettingsFile :=
  match fs.readText path with
  | .error cause => .error (.unreadable path cause)
  | .ok text =>
    match SettingsFile.parse text with
    | some file => .ok file
    | none => .error (.malformed path)

/-- The paths of the settings files: that of the user only if it is a file, that of the
arguments in any case. -/
def settingsPaths (fs : FileSystem) (userFile : Option String) (arguments : Arguments) :
    List String :=
  (userFile.filter fs.isFile).toList ++ arguments.config.toList

/-- The settings that the files at some paths amount to, or the error of the first file
that has one. -/
def loadLayers (fs : FileSystem) (paths : List String) :
    Except ConfigurationError EstimatorSettings :=
  paths.foldlM (fun settings path => do return (← loadFile fs path).apply settings) {}

/-- The settings that the arguments name. -/
def Arguments.settings (arguments : Arguments) : SettingsFile where
  feedRate := arguments.feedRate
  policy := arguments.policy

/-- The configuration that all layers amount to. -/
def Configuration.load (fs : FileSystem) (userFile : Option String) (arguments : Arguments) :
    Except ConfigurationError Configuration := do
  let paths := settingsPaths fs userFile arguments
  let settings := arguments.settings.apply (← loadLayers fs paths)
  if settings.isValid then
    return {
      files := arguments.files
      format := arguments.format
      watch := arguments.watch
      logLevel := arguments.logLevel
      settings := settings
      sources := paths }
  else .error (.invalid settings)

end PrintJob

/-
# The command line

A run of the program as a function: from the arguments and the files to what is
printed and how the program ends. Only watching goes on after that.
-/
import PrintJob.Configuration
import PrintJob.Watch

namespace PrintJob

/-- The name that the program goes by. -/
def programName : String := "gcode-analyze"

/-- The version of the program. -/
def programVersion : String := "0.1.0"

/-- What is printed on request. -/
def helpText : String :=
  "Extract slicer metadata and estimate print time of G-code files\n\n" ++
  "Usage: " ++ programName ++ " [OPTIONS] <FILES>...\n\n" ++
  "Options:\n" ++
  "      --format <FORMAT>                        Output format (text, json) [default: text]\n" ++
  "      --config <CONFIG>                        Configuration file (TOML)\n" ++
  "      --default-feed-rate <DEFAULT_FEED_RATE>  Feed rate in mm/min assumed before the first F word\n" ++
  "      --zero-feed-policy <ZERO_FEED_POLICY>    What F0 does (keep-previous, skip-move)\n" ++
  "      --watch                                  Re-analyze files whenever they change\n" ++
  "      --log-level <LOG_LEVEL>                  Log level [default: warn]\n" ++
  "  -h, --help                                   Print help\n" ++
  "  -V, --version                                Print version\n"

/-- What is said about arguments that could not be read. -/
def ArgumentError.message : ArgumentError → String
  | .displayHelp => helpText
  | .displayVersion => programName ++ " " ++ programVersion ++ "\n"
  | .unknownArgument => "error: unexpected argument found\n"
  | .invalidValue => "error: a value is missing or not allowed\n"
  | .valueValidation => "error: a value is not a number\n"
  | .argumentConflict => "error: an option is given more than once\n"
  | .tooManyValues => "error: an option takes no value\n"
  | .missingRequiredArgument => "error: no file is given\n"

/-- How a run ends. -/
inductive Ending where
  | exit (status : Nat)
  /-- The run goes on with watching files, which ends only when it is stopped. -/
  | watch (configuration : Configuration) (files : List PathParts)

/-- What a run has done. -/
structure Outcome where
  /-- What is written to the standard output. -/
  output : String
  /-- What is written to the error output. -/
  diagnostics : String
  ending : Ending

/-- The outcome of arguments that could not be read. Help and version were asked for and
are no errors. -/
def ArgumentError.outcome (error : ArgumentError) : Outcome :=
  match error with
  | .displayHelp => ⟨error.message, "", .exit 0⟩
  | .displayVersion => ⟨error.message, "", .exit 0⟩
  | _ => ⟨"", error.message, .exit 2⟩

/-- What is said about a failure that ends a run. -/
def Failure.diagnostics (failure : Failure) : String := "Error: " ++ failure.message ++ "\n"

/-- The status of a run with some reports: it fails if one of them is an error. -/
def exitStatus (reports : List FileReport) : Nat := if reports.any FileReport.failed then 1 else 0

/-- The outcome of a run with a configuration. -/
def runConfigured (fs : FileSystem) (configuration : Configuration) : Outcome :=
  let reports := analyzeFiles fs configuration.settings configuration.files
  let output := render configuration.format reports
  if configuration.watch then
    match Watch.targets fs configuration.files with
    | .ok files => ⟨output, "", .watch configuration files⟩
    | .error error => ⟨output, error.failure.diagnostics, .exit 1⟩
  else ⟨output, "", .exit (exitStatus reports)⟩

/-- The outcome of a run with arguments, the first of which is the name of the program. -/
def runProgram (fs : FileSystem) (userFile : Option String) (argv : List String) : Outcome :=
  match Arguments.parse argv with
  | .error error => error.outcome
  | .ok arguments =>
    match Configuration.load fs userFile arguments with
    | .error error => ⟨"", error.failure.diagnostics, .exit 1⟩
    | .ok configuration => runConfigured fs configuration

end PrintJob

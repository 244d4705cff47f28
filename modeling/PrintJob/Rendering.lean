/-
# Rendering file reports

The outcome of analysing files, as text for people or as JSON for programs.

* `renderText`: one paragraph for each file. Rendering a concatenation of lists is
  the concatenation of the renderings (`renderText_append`).
* `renderJson`: one array with an object for each file.
-/
import PrintJob.Json.Printer
import PrintJob.ReportData

namespace PrintJob

/-! ## Outcomes -/

/-- Why something failed: messages from the outermost context to the cause. -/
structure Failure where
  levels : List String
deriving DecidableEq

/-- All messages in one line. -/
def Failure.message (failure : Failure) : String := ": ".intercalate failure.levels

/-- The outcome for one file. -/
structure FileReport where
  path : String
  outcome : Except Failure Report

/-- Whether the file could not be analysed. -/
def FileReport.failed (file : FileReport) : Bool :=
  match file.outcome with
  | .ok _ => false
  | .error _ => true

/-! ## Text -/

/-- One line of output. -/
def textLine (parts : List String) : String := String.join parts ++ "\n"

/-- A value, or a dash if it is absent. -/
def orDash (value : Option String) : String := value.getD "-"

/-- A natural number. -/
def wholeNumber (n : Nat) : String := String.ofList (digits n)

/-- A number without an exponent. -/
def plainNumber (x : Binary64) : String := String.ofList (NumberStyle.plain.write x)

/-- The line about the moves, if they were simulated. -/
def movesText : Option Simulation → String
  | none => ""
  | some simulation =>
    textLine ["  moves:          ", wholeNumber simulation.moves, " (",
      String.ofList simulation.distance.oneDecimal, " mm)"]

/-- The lines about a report. -/
def reportText (report : Report) : String :=
  textLine ["  flavor:         ", orDash report.metadata.flavor] ++
  textLine ["  print time:     ", String.ofList (Duration.format report.estimatedSeconds), " (",
    wholeNumber report.estimatedSeconds.toNat, " s, ", report.timeSource.name, ")"] ++
  textLine ["  filament used:  ", orDash (report.metadata.filamentUsed.map plainNumber)] ++
  textLine ["  layer height:   ",
    orDash (report.metadata.layerHeight.map fun height => plainNumber height ++ " mm")] ++
  textLine ["  layers:         ", wholeNumber report.layerCount] ++
  movesText report.simulation

/-- The paragraph about a file. -/
def fileText (file : FileReport) : String :=
  textLine [file.path] ++
    match file.outcome with
    | .ok report => reportText report
    | .error failure => textLine ["  error: ", failure.message]

/-- The paragraphs about all files. -/
def renderText (files : List FileReport) : String := String.join (files.map fileText)

/-- Each file has a paragraph of its own, whatever stands before and after it. -/
theorem renderText_append (a b : List FileReport) :
    renderText (a ++ b) = renderText a ++ renderText b := by
  simp [renderText, String.join_append]

/-! ## JSON -/

/-- The object about a file. -/
def FileReport.toJson (file : FileReport) : Json :=
  .object [("path", .string file.path),
    match file.outcome with
    | .ok report => ("report", report.toJson)
    | .error failure => ("error", .string failure.message)]

/-- The array about all files, with sorted fields, on lines of its own. -/
def renderJson (files : List FileReport) : String :=
  String.ofList ((Json.array (files.map FileReport.toJson)).sortKeys.pretty ++ ['\n'])

/-! ## Both -/

/-- What reports are written as. -/
inductive OutputFormat where
  | text
  | json
deriving DecidableEq, Inhabited

/-- The name of a format in arguments. -/
def OutputFormat.name : OutputFormat → String
  | .text => "text"
  | .json => "json"

/-- The format with a name. -/
def OutputFormat.ofName? (name : String) : Option OutputFormat :=
  if name = "text" then some .text else if name = "json" then some .json else none

/-- File reports in a format. -/
def render (format : OutputFormat) (files : List FileReport) : String :=
  match format with
  | .text => renderText files
  | .json => renderJson files

end PrintJob

/-
# Analysing files

Each file is analysed on its own, and what goes wrong with one file is said in its
own report. The files may be analysed in any order; the reports come in the order of
the paths.

* `analyzeFile`: the report of one file.
* `analyzeInOrder`: the reports of all files when they are analysed in a given order.
-/
import PrintJob.FileSystem
import PrintJob.Rendering

namespace PrintJob

/-- What is said about a file that could not be read. -/
def readFailure (path : String) (cause : ReadError) : Failure :=
  ⟨["Failed to read " ++ path, cause.message]⟩

/-- The report of the file at a path. -/
def analyzeFile (fs : FileSystem) (settings : EstimatorSettings) (path : String) : FileReport where
  path := path
  outcome :=
    match fs.readText path with
    | .ok text => .ok (Document.report ⟨text, settings⟩)
    | .error cause => .error (readFailure path cause)

/-! ## Many files -/

/-- The reports that are complete after some of the files were analysed, each with the
place of its path. -/
def completions (fs : FileSystem) (settings : EstimatorSettings) (paths : List String)
    (order : List Nat) : List (Nat × FileReport) :=
  order.filterMap fun place => paths[place]?.map fun path =>
    (place, analyzeFile fs settings path)

/-- The complete reports in the order of their places. -/
def gather (count : Nat) (complete : List (Nat × FileReport)) : List FileReport :=
  (List.range count).filterMap fun place => List.lookup place complete

/-- The reports of all files, analysed in the order of the given places. -/
def analyzeInOrder (fs : FileSystem) (settings : EstimatorSettings) (paths : List String)
    (order : List Nat) : List FileReport :=
  gather paths.length (completions fs settings paths order)

/-- The reports of all files. -/
def analyzeFiles (fs : FileSystem) (settings : EstimatorSettings) (paths : List String) :
    List FileReport :=
  analyzeInOrder fs settings paths (List.range paths.length)

end PrintJob

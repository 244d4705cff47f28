/-
# Documents and their reports

A document is a text together with the settings that its print time is estimated
with. Its report says all that is known about it: what the slicer declared, the
layer marks, and the print time, which is the declared one if that is not zero and
is simulated otherwise.
-/
import PrintJob.Estimator
import PrintJob.LayerMark
import PrintJob.Metadata

namespace PrintJob

/-- Where a print time comes from. -/
inductive TimeSource where
  | metadata
  | simulation
deriving DecidableEq

/-- The name of a source in reports. -/
def TimeSource.name : TimeSource → String
  | .metadata => "metadata"
  | .simulation => "simulation"

/-- All that is known about a document. -/
structure Report where
  metadata : Metadata
  layerCount : Nat
  /-- Print time in whole seconds. -/
  estimatedSeconds : UInt64
  timeSource : TimeSource
  /-- The simulation, if the print time is its. -/
  simulation : Option Simulation
deriving DecidableEq

/-- A text and the settings to estimate its print time with. -/
structure Document where
  text : List Char
  settings : EstimatorSettings := {}

namespace Document

/-- What the slicer declared. -/
def metadata (document : Document) : Metadata := .extract document.text

/-- The number of layer marks. -/
def layerCount (document : Document) : Nat := countLayers document.text

/-- The declared print time, if it is not zero. -/
def declaredTime (document : Document) : Option UInt64 :=
  document.metadata.estimatedTime.filter (· != 0)

/-- The run of all moves, whatever was declared. -/
def simulation (document : Document) : Simulation := simulate document.settings document.text

/-- The print time in whole seconds. -/
def printTime (document : Document) : UInt64 :=
  match document.declaredTime with
  | some seconds => seconds
  | none => document.simulation.roundedSeconds

/-- The report of a document. -/
def report (document : Document) : Report :=
  match document.declaredTime with
  | some seconds =>
    { metadata := document.metadata
      layerCount := document.layerCount
      estimatedSeconds := seconds
      timeSource := .metadata
      simulation := none }
  | none =>
    { metadata := document.metadata
      layerCount := document.layerCount
      estimatedSeconds := document.simulation.roundedSeconds
      timeSource := .simulation
      simulation := some document.simulation }

end Document

end PrintJob

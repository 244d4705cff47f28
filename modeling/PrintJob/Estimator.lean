/-
# Print time by simulation

The time that a text takes is found by running all of its linear moves from the
origin. There is no acceleration: every move travels at the feed rate in effect.

* `EstimatorSettings`: the feed rate to start with and the `FeedPolicy`.
* `simulate`: the run over a whole text, and what it ends with.
-/
import PrintJob.Decimal.Layout
import PrintJob.Motion
import PrintJob.Text.Lines

namespace PrintJob

/-! ## Settings -/

/-- The feed rate that is assumed if nothing usable is configured. -/
def defaultFeedRate : Binary64 := 1200

/-- How print time is estimated. -/
structure EstimatorSettings where
  /-- Feed rate before the first feed word, in millimetres per minute. -/
  feedRate : Binary64 := defaultFeedRate
  policy : FeedPolicy := .keepPrevious
deriving DecidableEq

instance : Inhabited EstimatorSettings := ⟨{}⟩

namespace EstimatorSettings

/-- Settings are valid when their feed rate is finite and positive. -/
def isValid (settings : EstimatorSettings) : Bool :=
  settings.feedRate.isFinite && settings.feedRate.isPositive

/-- What is said about settings that are not valid. -/
def invalidMessage (settings : EstimatorSettings) : String :=
  "default feed rate must be a positive number of mm/min, got " ++
    String.ofList (NumberStyle.plain.write settings.feedRate)

/-- The feed rate that a run starts with. -/
def startingFeedRate (settings : EstimatorSettings) : Binary64 :=
  if settings.isValid then settings.feedRate else defaultFeedRate

end EstimatorSettings

/-! ## Simulation -/

/-- What a run ends with. -/
structure Simulation where
  /-- Time in seconds, not rounded. -/
  seconds : Binary64
  /-- Travel in millimetres. -/
  distance : Binary64
  /-- Number of linear moves. -/
  moves : Nat
  finalPosition : Position
  finalFeedRate : Binary64
deriving DecidableEq

/-- The outcome that a state stands for. -/
def MotionState.toSimulation (state : MotionState) : Simulation where
  seconds := state.elapsed
  distance := state.distance
  moves := state.moves
  finalPosition := state.position
  finalFeedRate := state.feedRate

/-- Whole seconds; a half goes up, and the largest number stands for all beyond it. -/
def Simulation.roundedSeconds (simulation : Simulation) : UInt64 :=
  UInt64.ofNatLT (simulation.seconds.roundToNat (2 ^ 64 - 1))
    (Nat.lt_of_le_of_lt (Binary64.roundToNat_le _ _) (by decide))

/-- The linear moves of a text, in order. -/
def movesOf (text : List Char) : List Move := (lines text).filterMap Move.parse

/-- The state at the end of a text. -/
def finalState (settings : EstimatorSettings) (text : List Char) : MotionState :=
  MotionState.run settings.policy (.start settings.startingFeedRate) (movesOf text)

/-- The run over all linear moves of a text. -/
def simulate (settings : EstimatorSettings) (text : List Char) : Simulation :=
  (finalState settings text).toSimulation

/-- The simulated print time of a text in whole seconds. -/
def estimateSeconds (settings : EstimatorSettings) (text : List Char) : UInt64 :=
  (simulate settings text).roundedSeconds

end PrintJob

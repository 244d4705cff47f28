/-
# The state of a run

A run carries out moves one after another. Its state holds the position and the
feed rate in effect, and what has added up: time, travel and the number of moves.
Time and travel of a move count together or not at all: if the length of the
move, or one of the two new sums, is not finite, neither is added.

Facts about a step become facts about a run by `MotionState.run_induction`, and facts
about the steps of two runs over the same moves by `MotionState.run_relation`.
-/
import PrintJob.FeedPolicy
import PrintJob.Move

namespace PrintJob

/-- What is known after some moves. -/
structure MotionState where
  position : Position
  /-- Feed rate in effect, in millimetres per minute. -/
  feedRate : Binary64
  /-- Time, in seconds. -/
  elapsed : Binary64
  /-- Travel, in millimetres. -/
  distance : Binary64
  moves : Nat
deriving DecidableEq

namespace MotionState

/-- The state before the first move. -/
def start (feedRate : Binary64) : MotionState where
  position := .origin
  feedRate := feedRate
  elapsed := .zero
  distance := .zero
  moves := 0

/-- The feed rate in effect during a move. -/
def feedRateFor (state : MotionState) (policy : FeedPolicy) (move : Move) : Binary64 :=
  match move.feedRate with
  | some requested => policy.nextFeedRate state.feedRate requested
  | none => state.feedRate

/-- The length of a move. -/
def lengthOf (state : MotionState) (move : Move) : Binary64 :=
  state.position.distanceTo (move.target state.position)

/-- The time after travelling `length`; without a positive feed rate no time passes.
Millimetres by millimetres per minute are minutes. -/
def elapsedAfter (state : MotionState) (feedRate length : Binary64) : Binary64 :=
  if feedRate.isPositive then state.elapsed + length / feedRate * 60 else state.elapsed

/-- Whether the time and the travel of a move can be added. -/
def counts (state : MotionState) (policy : FeedPolicy) (move : Move) : Bool :=
  let length := state.lengthOf move
  length.isFinite && (state.elapsedAfter (state.feedRateFor policy move) length).isFinite &&
    (state.distance + length).isFinite

/-- The state after one more move. -/
def step (policy : FeedPolicy) (state : MotionState) (move : Move) : MotionState :=
  let feedRate := state.feedRateFor policy move
  let length := state.lengthOf move
  let counts := state.counts policy move
  { position := move.target state.position
    feedRate := feedRate
    elapsed := if counts then state.elapsedAfter feedRate length else state.elapsed
    distance := state.distance + if counts then length else .zero
    moves := state.moves + 1 }

/-- The state after a list of moves. -/
def run (policy : FeedPolicy) (state : MotionState) (moves : List Move) : MotionState :=
  moves.foldl (step policy) state

@[simp]
theorem run_nil (policy : FeedPolicy) (state : MotionState) : run policy state [] = state := rfl

@[simp]
theorem run_cons (policy : FeedPolicy) (state : MotionState) (move : Move) (moves : List Move) :
    run policy state (move :: moves) = run policy (step policy state move) moves := rfl

/-- A run can be interrupted anywhere and continued. -/
theorem run_append (policy : FeedPolicy) (state : MotionState) (a b : List Move) :
    run policy state (a ++ b) = run policy (run policy state a) b :=
  List.foldl_append

/-- An invariant: what each of the moves keeps, the run over them keeps. -/
theorem run_induction (P : MotionState → Prop) {policy : FeedPolicy} {moves : List Move}
    (hstep : ∀ state, P state → ∀ move ∈ moves, P (step policy state move))
    {state : MotionState} (h : P state) : P (run policy state moves) :=
  List.foldlRecOn moves (step policy) h hstep

/-- What each of the moves keeps between two states, the two runs over them keep. -/
theorem run_relation (R : MotionState → MotionState → Prop) {p q : FeedPolicy} {moves : List Move}
    (hstep : ∀ a b, R a b → ∀ move ∈ moves, R (step p a move) (step q b move))
    {a b : MotionState} (h : R a b) : R (run p a moves) (run q b moves) :=
  List.foldl_rel h fun move hmove c d hcd => hstep c d hcd move hmove

@[simp]
theorem moves_step (policy : FeedPolicy) (state : MotionState) (move : Move) :
    (step policy state move).moves = state.moves + 1 := rfl

@[simp]
theorem position_step (policy : FeedPolicy) (state : MotionState) (move : Move) :
    (step policy state move).position = move.target state.position := rfl

@[simp]
theorem feedRate_step (policy : FeedPolicy) (state : MotionState) (move : Move) :
    (step policy state move).feedRate = state.feedRateFor policy move := rfl

/-- Every move is counted, whatever it adds. -/
theorem moves_run (policy : FeedPolicy) (state : MotionState) (moves : List Move) :
    (run policy state moves).moves = state.moves + moves.length := by
  induction moves generalizing state with
  | nil => rfl
  | cons move rest ih =>
    rw [run_cons, ih, moves_step, List.length_cons]
    omega

end MotionState

end PrintJob

/-
# What one move does

A move always takes the head to its target, sets the feed rate that its policy
takes, and is counted. Its time and its travel count together or not at all: if the
length, the new time or the new travel is not finite, time and travel stay as they
were (`MotionState.step_wholly_or_not`). Nothing is asked of the position and the
feed rate here, which an earlier move may have left infinite or without a number;
finite time and travel stay finite over any run (`MotionState.isFinite_sums_run`).
-/
import PrintJob.Motion
import PrintJob.Proofs.FiniteRun

namespace PrintJob

/-! ## Feed words that take effect -/

/-- Whether a requested rate takes effect: a positive one always, any other only if
moves at such a rate are skipped. -/
def FeedPolicy.takes : FeedPolicy → Binary64 → Bool
  | .keepPrevious, requested => requested.isPositive
  | .skipMove, _ => true

theorem FeedPolicy.nextFeedRate_eq (policy : FeedPolicy) (current requested : Binary64) :
    policy.nextFeedRate current requested = if policy.takes requested then requested else current := by
  cases policy with
  | keepPrevious => rfl
  | skipMove => exact nextFeedRate_skipMove current requested

/-- The rate during a move is the one that it asks for and the policy takes, or else
the one before. -/
theorem MotionState.feedRateFor_eq (state : MotionState) (policy : FeedPolicy) (move : Move) :
    state.feedRateFor policy move = (move.feedRate.filter policy.takes).getD state.feedRate := by
  unfold feedRateFor
  cases move.feedRate with
  | none => rfl
  | some requested =>
    show policy.nextFeedRate state.feedRate requested = _
    rw [Option.filter_some, policy.nextFeedRate_eq]
    by_cases h : policy.takes requested = true
    · rw [if_pos h, if_pos h]
      rfl
    · rw [if_neg h, if_neg h]
      rfl

/-! ## Adding nothing -/

namespace Binary64

theorem numEq_finite_iff {s t : Bool} {a b : Magnitude} :
    (finite s a).numEq (finite t b) = true ↔ signedUnits s a = signedUnits t b := by
  show decide (signedUnits s a = signedUnits t b) = true ↔ _
  exact decide_eq_true_iff

/-- A finite double is numerically equal to itself. -/
theorem numEq_self {x : Binary64} (h : x.isFinite = true) : x.numEq x = true := by
  obtain ⟨negative, m, rfl⟩ := isFinite_iff.mp h
  exact numEq_finite_iff.mpr rfl

end Binary64

/-! ## Time and travel of one move -/

namespace MotionState

theorem counts_iff {state : MotionState} {policy : FeedPolicy} {move : Move} :
    state.counts policy move = true ↔ (state.lengthOf move).isFinite = true ∧
      (state.elapsedAfter (state.feedRateFor policy move) (state.lengthOf move)).isFinite = true ∧
      (state.distance + state.lengthOf move).isFinite = true := by
  simp only [counts, Bool.and_eq_true, and_assoc]

/-- A move that counts adds its time and its travel. -/
theorem sums_step_of_counts {state : MotionState} {policy : FeedPolicy} {move : Move}
    (h : state.counts policy move = true) :
    (step policy state move).elapsed =
        state.elapsedAfter (state.feedRateFor policy move) (state.lengthOf move) ∧
      (step policy state move).distance = state.distance + state.lengthOf move := by
  constructor
  · show (if state.counts policy move then _ else _ : Binary64) = _
    rw [if_pos h]
  · show (state.distance + if state.counts policy move then _ else _ : Binary64) = _
    rw [if_pos h]

/-- A move that does not count adds no time and a travel of zero. -/
theorem sums_step_of_not_counts {state : MotionState} {policy : FeedPolicy} {move : Move}
    (h : ¬ state.counts policy move = true) :
    (step policy state move).elapsed = state.elapsed ∧
      (step policy state move).distance = state.distance + .zero := by
  constructor
  · show (if state.counts policy move then _ else _ : Binary64) = _
    rw [if_neg h]
  · show (state.distance + if state.counts policy move then _ else _ : Binary64) = _
    rw [if_neg h]

/-- Finite time and travel stay finite over a run, whatever the moves and the position are. -/
theorem isFinite_sums_run (policy : FeedPolicy) {state : MotionState} (moves : List Move)
    (helapsed : state.elapsed.isFinite = true) (hdistance : state.distance.isFinite = true) :
    (run policy state moves).elapsed.isFinite = true ∧
      (run policy state moves).distance.isFinite = true := by
  refine run_induction
    (fun current => current.elapsed.isFinite = true ∧ current.distance.isFinite = true) ?_
    ⟨helapsed, hdistance⟩
  rintro current ⟨htime, htravel⟩ move -
  exact ⟨isFinite_elapsed_step policy move htime, isFinite_distance_step policy move htravel⟩

end MotionState

end PrintJob

/-
# Runs stay finite

No infinity and no value that is no number gets into a run. Only finite numbers
are taken from a line, the rate that a run starts with is finite, and what a move
adds to time and travel is dropped when a sum would leave the finite range. The
invariant is `MotionState.IsFinite`: one step keeps it (`isFinite_step`), hence a
run does (`isFinite_run`).

Under `FeedPolicy.keepPrevious` the feed rate also stays positive
(`isPositive_feedRate_run`).
-/
import PrintJob.Estimator
import PrintJob.Proofs.FiniteDouble

namespace PrintJob

/-! ## What it is to be finite -/

/-- All four coordinates are finite. -/
structure Position.IsFinite (p : Position) : Prop where
  x : p.x.isFinite = true
  y : p.y.isFinite = true
  z : p.z.isFinite = true
  e : p.e.isFinite = true

/-- All values that a move gives are finite. -/
structure Move.IsFinite (move : Move) : Prop where
  x : ∀ value, move.x = some value → value.isFinite = true
  y : ∀ value, move.y = some value → value.isFinite = true
  z : ∀ value, move.z = some value → value.isFinite = true
  e : ∀ value, move.e = some value → value.isFinite = true
  feedRate : ∀ value, move.feedRate = some value → value.isFinite = true

/-- All numbers of a state are finite. -/
structure MotionState.IsFinite (state : MotionState) : Prop where
  position : state.position.IsFinite
  feedRate : state.feedRate.isFinite = true
  elapsed : state.elapsed.isFinite = true
  distance : state.distance.isFinite = true

/-- All numbers of an outcome are finite. -/
structure Simulation.IsFinite (simulation : Simulation) : Prop where
  seconds : simulation.seconds.isFinite = true
  distance : simulation.distance.isFinite = true
  finalPosition : simulation.finalPosition.IsFinite
  finalFeedRate : simulation.finalFeedRate.isFinite = true

/-- The outcome of a finite state is finite. -/
theorem MotionState.isFinite_toSimulation {state : MotionState} (h : state.IsFinite) :
    state.toSimulation.IsFinite where
  seconds := h.elapsed
  distance := h.distance
  finalPosition := h.position
  finalFeedRate := h.feedRate

/-! ## Moves that are read from lines -/

/-- The value of a letter is finite if there is one. -/
theorem Command.isFinite_of_value {command : Command} {letter : Char} {value : Binary64}
    (h : command.value letter = some value) : value.isFinite = true := by
  obtain ⟨parameter, -, hnumber⟩ := Option.bind_eq_some_iff.mp h
  exact Binary64.isFinite_of_readFinite hnumber

theorem Move.isFinite_ofCommand (command : Command) : (Move.ofCommand command).IsFinite where
  x _ h := Command.isFinite_of_value h
  y _ h := Command.isFinite_of_value h
  z _ h := Command.isFinite_of_value h
  e _ h := Command.isFinite_of_value h
  feedRate _ h := Command.isFinite_of_value h

/-- Whatever a line says, the move on it has finite values only. -/
theorem Move.isFinite_of_parse {line : List Char} {move : Move}
    (h : Move.parse line = some move) : move.IsFinite := by
  rw [Move.parse] at h
  split at h
  · split at h
    · cases h
      exact Move.isFinite_ofCommand _
    · cases h
  · cases h

theorem isFinite_of_mem_movesOf {text : List Char} {move : Move} (h : move ∈ movesOf text) :
    move.IsFinite := by
  obtain ⟨line, -, hparse⟩ := List.mem_filterMap.mp h
  exact Move.isFinite_of_parse hparse

/-! ## One step -/

theorem Position.isFinite_origin : Position.origin.IsFinite := ⟨rfl, rfl, rfl, rfl⟩

/-- A value that may be given, or else the old one. -/
theorem isFinite_getD {given : Option Binary64} {old : Binary64}
    (hgiven : ∀ value, given = some value → value.isFinite = true)
    (hold : old.isFinite = true) : (given.getD old).isFinite = true := by
  cases given with
  | none => exact hold
  | some value => exact hgiven value rfl

theorem Move.isFinite_target {move : Move} {start : Position} (hm : move.IsFinite)
    (hs : start.IsFinite) : (move.target start).IsFinite where
  x := isFinite_getD hm.x hs.x
  y := isFinite_getD hm.y hs.y
  z := isFinite_getD hm.z hs.z
  e := isFinite_getD hm.e hs.e

/-- Either policy picks one of the two rates. -/
theorem FeedPolicy.isFinite_nextFeedRate (policy : FeedPolicy) {current requested : Binary64}
    (hc : current.isFinite = true) (hr : requested.isFinite = true) :
    (policy.nextFeedRate current requested).isFinite = true := by
  unfold nextFeedRate
  split
  · exact hr
  · cases policy
    · exact hc
    · exact hr

namespace MotionState

theorem isFinite_feedRateFor (policy : FeedPolicy) {state : MotionState} {move : Move}
    (hs : state.feedRate.isFinite = true) (hm : move.IsFinite) :
    (state.feedRateFor policy move).isFinite = true := by
  unfold feedRateFor
  cases h : move.feedRate with
  | none => exact hs
  | some requested => exact policy.isFinite_nextFeedRate hs (hm.feedRate requested h)

/-- The new time is finite, whether the move counts or not. -/
theorem isFinite_elapsed_step (policy : FeedPolicy) {state : MotionState} (move : Move)
    (hs : state.elapsed.isFinite = true) : (step policy state move).elapsed.isFinite = true := by
  show (if state.counts policy move then _ else _ : Binary64).isFinite = true
  by_cases h : state.counts policy move = true
  · rw [if_pos h]
    simp only [counts, Bool.and_eq_true] at h
    exact h.1.2
  · rw [if_neg h]
    exact hs

/-- The new travel is finite, whether the move counts or not. -/
theorem isFinite_distance_step (policy : FeedPolicy) {state : MotionState} (move : Move)
    (hs : state.distance.isFinite = true) : (step policy state move).distance.isFinite = true := by
  show (state.distance + if state.counts policy move then _ else _ : Binary64).isFinite = true
  by_cases h : state.counts policy move = true
  · rw [if_pos h]
    simp only [counts, Bool.and_eq_true] at h
    exact h.2
  · rw [if_neg h]
    exact Binary64.isFinite_add_zero hs

/-- **A move with finite values keeps a state finite.** -/
theorem isFinite_step (policy : FeedPolicy) {state : MotionState} {move : Move}
    (hs : state.IsFinite) (hm : move.IsFinite) : (step policy state move).IsFinite where
  position := Move.isFinite_target hm hs.position
  feedRate := isFinite_feedRateFor policy hs.feedRate hm
  elapsed := isFinite_elapsed_step policy move hs.elapsed
  distance := isFinite_distance_step policy move hs.distance

/-- Keeping the previous rate keeps it positive, whatever is asked for. -/
theorem isPositive_feedRate_step {state : MotionState} (move : Move)
    (hs : state.feedRate.isPositive = true) :
    (step .keepPrevious state move).feedRate.isPositive = true := by
  rw [feedRate_step, feedRateFor]
  cases move.feedRate with
  | none => exact hs
  | some requested => exact FeedPolicy.isPositive_nextFeedRate_keepPrevious hs requested

/-! ## Runs -/

theorem isFinite_start {feedRate : Binary64} (h : feedRate.isFinite = true) :
    (start feedRate).IsFinite :=
  ⟨Position.isFinite_origin, h, rfl, rfl⟩

/-- **A run of finite moves keeps a state finite.** -/
theorem isFinite_run (policy : FeedPolicy) {state : MotionState} {moves : List Move}
    (hs : state.IsFinite) (hm : ∀ move ∈ moves, move.IsFinite) :
    (run policy state moves).IsFinite := by
  refine run_induction MotionState.IsFinite ?_ hs
  intro current hcurrent move hmove
  exact isFinite_step policy hcurrent (hm move hmove)

/-- Under `keepPrevious` the feed rate of a run stays positive. -/
theorem isPositive_feedRate_run {state : MotionState} (moves : List Move)
    (hs : state.feedRate.isPositive = true) :
    (run .keepPrevious state moves).feedRate.isPositive = true := by
  refine run_induction (fun current => current.feedRate.isPositive = true) ?_ hs
  intro current hcurrent move _
  exact isPositive_feedRate_step move hcurrent

end MotionState

/-! ## The rate that a run starts with -/

theorem isValid_defaultFeedRate : EstimatorSettings.isValid {} = true := by
  have h : (1200 : Nat) ≤ 2 ^ 53 := by decide
  have hfinite : defaultFeedRate.isFinite = true := by
    show (Binary64.ofNat 1200).isFinite = true
    rw [Binary64.ofNat_eq_finite h]
    rfl
  have hpositive : defaultFeedRate.isPositive = true := Binary64.isPositive_ofNat h (by decide)
  rw [EstimatorSettings.isValid, hfinite, hpositive, Bool.and_self]

/-- Whatever is configured, the starting rate is finite and positive. -/
theorem EstimatorSettings.startingFeedRate_spec (settings : EstimatorSettings) :
    settings.startingFeedRate.isFinite = true ∧ settings.startingFeedRate.isPositive = true := by
  rw [← Bool.and_eq_true, startingFeedRate]
  by_cases h : settings.isValid = true
  · rw [if_pos h]
    exact h
  · rw [if_neg h]
    exact isValid_defaultFeedRate

/-! ## Texts -/

/-- **Every number of an estimate is finite.** After any of the first moves of a
text the state is finite, with a positive feed rate if the policy keeps the
previous one, and so is the outcome of the whole text. -/
theorem isFinite_of_prefix_movesOf (settings : EstimatorSettings) (text : List Char)
    (moves : List Move) (h : moves <+: movesOf text) :
    let state := MotionState.run settings.policy (.start settings.startingFeedRate) moves
    state.IsFinite ∧
      (settings.policy = .keepPrevious → state.feedRate.isPositive = true) ∧
      (simulate settings text).IsFinite := by
  intro state
  have hstart := MotionState.isFinite_start settings.startingFeedRate_spec.1
  refine ⟨?_, ?_, ?_⟩
  · exact MotionState.isFinite_run _ hstart fun move hm =>
      isFinite_of_mem_movesOf (h.subset hm)
  · intro hpolicy
    show (MotionState.run settings.policy _ moves).feedRate.isPositive = true
    rw [hpolicy]
    exact MotionState.isPositive_feedRate_run moves settings.startingFeedRate_spec.2
  · have hrun := MotionState.isFinite_run settings.policy hstart
      fun move (hm : move ∈ movesOf text) => isFinite_of_mem_movesOf hm
    exact MotionState.isFinite_toSimulation hrun

/-- With no usable rate configured and a feed word of zero, the state behind the first
of two moves is finite and its rate is positive. -/
theorem isFinite_after_zero_feed_word :
    let settings : EstimatorSettings := ⟨.nan, .keepPrevious⟩
    let text := "G1 X5 F0\nG0 Y-2.5\n".toList
    let moves : List Move := [{ x := some 5, feedRate := some 0 }]
    let state := MotionState.run .keepPrevious (.start settings.startingFeedRate) moves
    moves <+: movesOf text ∧ state.IsFinite ∧ state.feedRate.isPositive = true ∧
      (simulate settings text).IsFinite := by
  intro settings text moves state
  have hfirst : moves <+: movesOf text := by decide +kernel
  obtain ⟨hfinite, hpositive, hsimulation⟩ := isFinite_of_prefix_movesOf settings text moves hfirst
  exact ⟨hfirst, hfinite, hpositive rfl, hsimulation⟩

end PrintJob

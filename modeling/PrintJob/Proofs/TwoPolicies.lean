/-
# The two policies side by side

The same moves are run twice from the same start, once keeping the previous feed rate
where a rate that is not positive is asked for and once skipping such moves. The rates
part at such a word and meet again at the next positive one. The relation that every
move keeps is `MotionState.Alongside` (`Alongside.step`, `Alongside.run`): one position,
one number of moves, and one feed rate wherever the skipping run has a positive one. So
the moves have the same lengths in both runs, and the travel is the same as long as all
of them count (`Alongside.distance_run`).
-/
import PrintJob.Proofs.OneMove

namespace PrintJob

namespace MotionState

/-- The state of a run that keeps the previous rate, and that of a run of the same moves
that skips moves without a positive rate. -/
structure Alongside (keep skip : MotionState) : Prop where
  position : keep.position = skip.position
  moves : keep.moves = skip.moves
  feedRate : skip.feedRate.isPositive = true → skip.feedRate = keep.feedRate

theorem alongside_self (state : MotionState) : state.Alongside state where
  position := rfl
  moves := rfl
  feedRate _ := rfl

/-! ## One move in both runs -/

variable {keep skip : MotionState}

/-- A positive rate of the skipping run was asked for, and then both runs took it, or it
is the one from before. -/
theorem Alongside.feedRateFor (h : keep.Alongside skip) (move : Move)
    (hpositive : (skip.feedRateFor .skipMove move).isPositive = true) :
    skip.feedRateFor .skipMove move = keep.feedRateFor .keepPrevious move := by
  unfold MotionState.feedRateFor at hpositive ⊢
  cases hfeed : move.feedRate with
  | none =>
    rw [hfeed] at hpositive
    exact h.feedRate hpositive
  -- here the runs meet again: the skipping run takes any rate, the other only a positive one
  | some requested =>
    rw [hfeed] at hpositive
    simp only [FeedPolicy.nextFeedRate_skipMove] at hpositive ⊢
    exact (FeedPolicy.nextFeedRate_of_isPositive .keepPrevious keep.feedRate hpositive).symm

theorem Alongside.lengthOf (h : keep.Alongside skip) (move : Move) :
    keep.lengthOf move = skip.lengthOf move := by
  unfold MotionState.lengthOf
  rw [h.position]

/-- **A move keeps the runs alongside**, whatever words it has. -/
theorem Alongside.step (h : keep.Alongside skip) (move : Move) :
    (step .keepPrevious keep move).Alongside (step .skipMove skip move) where
  position := by rw [position_step, position_step, h.position]
  moves := by rw [moves_step, moves_step, h.moves]
  feedRate := h.feedRateFor move

/-- A move that counts in both runs adds the same travel. -/
theorem Alongside.distance_step (h : keep.Alongside skip) (hdistance : keep.distance = skip.distance)
    {move : Move} (hkeep : keep.counts .keepPrevious move = true)
    (hskip : skip.counts .skipMove move = true) :
    (MotionState.step .keepPrevious keep move).distance =
      (MotionState.step .skipMove skip move).distance := by
  rw [(sums_step_of_counts hkeep).2, (sums_step_of_counts hskip).2, hdistance, h.lengthOf]

/-- A move that asks for no rate or a positive one does the same under either policy. -/
theorem step_eq_of_isPositive {move : Move}
    (h : ∀ requested, move.feedRate = some requested → requested.isPositive = true)
    (a b : FeedPolicy) (state : MotionState) :
    MotionState.step a state move = MotionState.step b state move := by
  have hrate : state.feedRateFor a move = state.feedRateFor b move := by
    unfold MotionState.feedRateFor
    cases hfeed : move.feedRate with
    | none => rfl
    | some requested =>
      have hpositive := h requested hfeed
      show a.nextFeedRate state.feedRate requested = b.nextFeedRate state.feedRate requested
      rw [a.nextFeedRate_of_isPositive _ hpositive, b.nextFeedRate_of_isPositive _ hpositive]
  have hcounts : state.counts a move = state.counts b move := by
    unfold counts
    rw [hrate]
  unfold MotionState.step
  rw [hrate, hcounts]

/-! ## Runs -/

/-- Whether the time and the travel of all moves of a run are added. -/
def countsAll (policy : FeedPolicy) : MotionState → List Move → Bool
  | _, [] => true
  | state, move :: rest =>
    state.counts policy move && countsAll policy (MotionState.step policy state move) rest

/-- All moves count if the first ones do, and then the further ones behind them. -/
theorem countsAll_append (policy : FeedPolicy) (state : MotionState) (a b : List Move) :
    state.countsAll policy (a ++ b) =
      (state.countsAll policy a && (MotionState.run policy state a).countsAll policy b) := by
  induction a generalizing state with
  | nil => rfl
  | cons move rest ih => rw [List.cons_append, countsAll, countsAll, ih, run_cons, Bool.and_assoc]

/-- **A run of any moves keeps the states alongside.** -/
theorem Alongside.run (h : keep.Alongside skip) (moves : List Move) :
    (run .keepPrevious keep moves).Alongside (run .skipMove skip moves) := by
  refine run_relation Alongside ?_ h
  intro c d hcd move _
  exact hcd.step move

/-- As long as all moves count in both runs, the travel is the same. -/
theorem Alongside.distance_run (h : keep.Alongside skip) (hdistance : keep.distance = skip.distance)
    (moves : List Move) (hkeep : countsAll .keepPrevious keep moves = true)
    (hskip : countsAll .skipMove skip moves = true) :
    (MotionState.run .keepPrevious keep moves).distance =
      (MotionState.run .skipMove skip moves).distance := by
  induction moves generalizing keep skip with
  | nil => exact hdistance
  | cons move rest ih =>
    rw [countsAll, Bool.and_eq_true] at hkeep hskip
    rw [run_cons, run_cons]
    exact ih (h.step move) (h.distance_step hdistance hkeep.1 hskip.1) hkeep.2 hskip.2

theorem run_eq_of_isPositive {moves : List Move}
    (h : ∀ move ∈ moves, ∀ requested, move.feedRate = some requested → requested.isPositive = true)
    (a b : FeedPolicy) (state : MotionState) :
    MotionState.run a state moves = MotionState.run b state moves := by
  refine run_relation (fun c d => c = d) ?_ rfl
  rintro c d rfl move hmove
  exact step_eq_of_isPositive (h move hmove) a b c

end MotionState

/-! ## Texts -/

/-- **The two policies agree on all but skipped moves.** Behind the first `n` moves of a
text position and number of moves are the same under both policies, a positive rate of
the skipping run is the rate of the other, and the travel is the same if all of these
moves count in both runs. If all feed words of the text are positive, the outcomes are
the same. -/
theorem policies_stay_alongside (feedRate : Binary64) (text : List Char) (n : Nat) :
    let keepSettings : EstimatorSettings := ⟨feedRate, .keepPrevious⟩
    let skipSettings : EstimatorSettings := ⟨feedRate, .skipMove⟩
    let keepStart := MotionState.start keepSettings.startingFeedRate
    let skipStart := MotionState.start skipSettings.startingFeedRate
    let moves := (movesOf text).take n
    let keep := MotionState.run .keepPrevious keepStart moves
    let skip := MotionState.run .skipMove skipStart moves
    keep.position = skip.position ∧ keep.moves = skip.moves ∧
      (skip.feedRate.isPositive = true → skip.feedRate = keep.feedRate) ∧
      (keepStart.countsAll .keepPrevious moves = true →
        skipStart.countsAll .skipMove moves = true → keep.distance = skip.distance) ∧
      ((∀ move ∈ movesOf text, ∀ requested, move.feedRate = some requested →
        requested.isPositive = true) → simulate keepSettings text = simulate skipSettings text) := by
  intro keepSettings skipSettings keepStart skipStart moves keep skip
  have hstart : keepStart.Alongside skipStart := MotionState.alongside_self keepStart
  have hrun : keep.Alongside skip := hstart.run moves
  refine ⟨hrun.position, hrun.moves, hrun.feedRate, ?_, ?_⟩
  · intro hkeep hskip
    exact hstart.distance_run rfl moves hkeep hskip
  · intro hpositive
    have hfinal : finalState keepSettings text = finalState skipSettings text :=
      MotionState.run_eq_of_isPositive hpositive .keepPrevious .skipMove keepStart
    rw [simulate, simulate, hfinal]

/-- Behind the second and third of four moves the skipping run has the rate zero, behind
the fourth both have the same again; without the feed word of zero the outcomes are the
same. -/
theorem alongside_over_zero_feed_word :
    let settings : FeedPolicy → EstimatorSettings := fun policy => ⟨.nan, policy⟩
    let text := "G1 X10 F600\nG1 X40 F0\nG1 Y10\nG1 X50 F300\n".toList
    let positive := "G1 X10 F600\nG1 X40\nG0 Y10 F300".toList
    let keepStart := MotionState.start (settings .keepPrevious).startingFeedRate
    let skipStart := MotionState.start (settings .skipMove).startingFeedRate
    let keep := fun n => MotionState.run .keepPrevious keepStart ((movesOf text).take n)
    let skip := fun n => MotionState.run .skipMove skipStart ((movesOf text).take n)
    (keep 3).feedRate = 600 ∧ (skip 3).feedRate = 0 ∧
      keepStart.countsAll .keepPrevious ((movesOf text).take 4) = true ∧
      skipStart.countsAll .skipMove ((movesOf text).take 4) = true ∧
      (skip 4).feedRate.isPositive = true ∧
      (keep 4).position = (skip 4).position ∧ (keep 4).moves = (skip 4).moves ∧
      (skip 4).feedRate = (keep 4).feedRate ∧ (keep 4).distance = (skip 4).distance ∧
      (∀ move ∈ movesOf positive, ∀ requested, move.feedRate = some requested →
        requested.isPositive = true) ∧
      simulate (settings .keepPrevious) positive = simulate (settings .skipMove) positive := by
  intro settings text positive keepStart skipStart keep skip
  have hkeepRate : (keep 3).feedRate = 600 := by decide +kernel
  have hskipRate : (skip 3).feedRate = 0 := by decide +kernel
  have hkeep : keepStart.countsAll .keepPrevious ((movesOf text).take 4) = true := by
    decide +kernel
  have hskip : skipStart.countsAll .skipMove ((movesOf text).take 4) = true := by decide +kernel
  have hagain : (skip 4).feedRate.isPositive = true := by decide +kernel
  have hpositive : ∀ move ∈ movesOf positive, ∀ requested, move.feedRate = some requested →
      requested.isPositive = true := by
    have hall : (movesOf positive).all (fun move => move.feedRate.all Binary64.isPositive) = true := by
      decide +kernel
    intro move hmove requested hrequested
    have hrate := List.all_eq_true.mp hall move hmove
    rw [hrequested] at hrate
    exact hrate
  obtain ⟨hposition, hmoves, hrate, hdistance, -⟩ := policies_stay_alongside .nan text 4
  obtain ⟨-, -, -, -, hsame⟩ := policies_stay_alongside .nan positive 0
  exact ⟨hkeepRate, hskipRate, hkeep, hskip, hagain, hposition, hmoves, hrate hagain,
    hdistance hkeep hskip, hpositive, hsame hpositive⟩

end PrintJob

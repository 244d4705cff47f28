/-
# Skipping never takes longer

The same moves are run under both policies, and no move overflows while the previous rate is
kept. A move then takes the same time in both runs, if the skipping run has a positive rate, or
no time in that run and a time that is not negative in the other. The relation that every move
keeps is `MotionState.Outlasts`: beside what `MotionState.Alongside` says, the travel is the same
and the skipping run has not taken longer (`Outlasts.step`, `Outlasts.run`). The sums of the
skipping run are never the larger ones, so they do not overflow either.
-/
import PrintJob.Proofs.RisingSums
import PrintJob.Proofs.TwoPolicies

namespace PrintJob

namespace MotionState

/-- The state of a run that keeps the previous rate, and that of a run of the same moves that
skips moves without a positive rate and has not taken longer. -/
structure Outlasts (keep skip : MotionState) : Prop where
  alongside : keep.Alongside skip
  distance : keep.distance = skip.distance
  elapsed : skip.elapsed ≤ keep.elapsed
  feedRate : keep.feedRate.isPositive = true
  keepSums : keep.SumsArePlus
  skipSums : skip.SumsArePlus

theorem outlasts_self {state : MotionState} (hrate : state.feedRate.isPositive = true)
    (hsums : state.SumsArePlus) : state.Outlasts state where
  alongside := alongside_self state
  distance := rfl
  elapsed := Binary64.le_refl hsums.elapsed.isFinite
  feedRate := hrate
  keepSums := hsums
  skipSums := hsums

/-! ## One move in both runs -/

variable {keep skip : MotionState}

/-- With the time of one more move the skipping run has still not taken longer, provided that the
time of the other is finite. -/
theorem Outlasts.elapsedAfter (h : keep.Outlasts skip) (move : Move)
    (hfinite : (keep.elapsedAfter (keep.feedRateFor .keepPrevious move)
      (keep.lengthOf move)).isFinite = true) :
    skip.elapsedAfter (skip.feedRateFor .skipMove move) (skip.lengthOf move) ≤
        keep.elapsedAfter (keep.feedRateFor .keepPrevious move) (keep.lengthOf move) ∧
      (skip.elapsedAfter (skip.feedRateFor .skipMove move) (skip.lengthOf move)).IsPlus := by
  have hlength := isNegative_lengthOf keep move
  have hkeep := (elapsed_le_elapsedAfter h.keepSums.elapsed hlength hfinite).1
  rw [← h.alongside.lengthOf move]
  by_cases hrate : (skip.feedRateFor .skipMove move).isPositive = true
  -- both runs have the same rate, so the same time is added to both sums
  · have hsame := h.alongside.feedRateFor move hrate
    rw [hsame] at hrate ⊢
    unfold MotionState.elapsedAfter at hfinite ⊢
    rw [if_pos hrate] at hfinite
    rw [if_pos hrate, if_pos hrate]
    exact h.skipSums.elapsed.add_le_add_right h.keepSums.elapsed h.elapsed
      (isNegative_time hrate hlength) hfinite
  · have hskip : skip.elapsedAfter (skip.feedRateFor .skipMove move) (keep.lengthOf move) =
        skip.elapsed := if_neg hrate
    rw [hskip]
    exact ⟨Binary64.le_trans h.elapsed hkeep, h.skipSums.elapsed⟩

/-- **A move that counts while the previous rate is kept** counts in the skipping run too, and that
run has still not taken longer. -/
theorem Outlasts.step (h : keep.Outlasts skip) {move : Move}
    (hcounts : keep.counts .keepPrevious move = true) :
    skip.counts .skipMove move = true ∧
      (MotionState.step .keepPrevious keep move).Outlasts
        (MotionState.step .skipMove skip move) := by
  obtain ⟨hlength, htime, htravel⟩ := counts_iff.mp hcounts
  obtain ⟨hle, hplus⟩ := h.elapsedAfter move htime
  have hskip : skip.counts .skipMove move = true := by
    rw [counts_iff, ← h.alongside.lengthOf move, ← h.distance]
    rw [← h.alongside.lengthOf move] at hplus
    exact ⟨hlength, hplus.isFinite, htravel⟩
  refine ⟨hskip, h.alongside.step move, h.alongside.distance_step h.distance hcounts hskip, ?_,
    isPositive_feedRate_step move h.feedRate, (sums_step _ move h.keepSums).1,
    (sums_step _ move h.skipSums).1⟩
  rw [(sums_step_of_counts hcounts).1, (sums_step_of_counts hskip).1]
  exact hle

/-! ## Runs -/

/-- **A run in which all moves count while the previous rate is kept.** -/
theorem Outlasts.run (h : keep.Outlasts skip) (moves : List Move)
    (hcounts : keep.countsAll .keepPrevious moves = true) :
    skip.countsAll .skipMove moves = true ∧
      (MotionState.run .keepPrevious keep moves).Outlasts
        (MotionState.run .skipMove skip moves) := by
  induction moves generalizing keep skip with
  | nil => exact ⟨rfl, h⟩
  | cons move rest ih =>
    rw [countsAll, Bool.and_eq_true] at hcounts
    obtain ⟨hfirst, hnext⟩ := h.step hcounts.1
    obtain ⟨hrest, hrun⟩ := ih hnext hcounts.2
    exact ⟨Bool.and_eq_true_iff.mpr ⟨hfirst, hrest⟩, hrun⟩

end MotionState

/-! ## Texts -/

/-- **Skipping never takes longer than keeping the previous rate**, if no move of the text
overflows while the previous rate is kept. Then none does in the skipping run either, behind any
number of moves that run has taken at most the time of the other, and so it has in the end, also
in whole seconds. -/
theorem skipping_never_takes_longer (feedRate : Binary64) (text : List Char) :
    let keepSettings : EstimatorSettings := ⟨feedRate, .keepPrevious⟩
    let skipSettings : EstimatorSettings := ⟨feedRate, .skipMove⟩
    let keepStart := MotionState.start keepSettings.startingFeedRate
    let skipStart := MotionState.start skipSettings.startingFeedRate
    keepStart.countsAll .keepPrevious (movesOf text) = true →
      skipStart.countsAll .skipMove (movesOf text) = true ∧
      (∀ n, (MotionState.run .skipMove skipStart ((movesOf text).take n)).elapsed ≤
        (MotionState.run .keepPrevious keepStart ((movesOf text).take n)).elapsed) ∧
      (simulate skipSettings text).seconds ≤ (simulate keepSettings text).seconds ∧
      estimateSeconds skipSettings text ≤ estimateSeconds keepSettings text := by
  intro keepSettings skipSettings keepStart skipStart hcounts
  have hstart : keepStart.Outlasts skipStart :=
    MotionState.outlasts_self keepSettings.startingFeedRate_spec.2
      (MotionState.sumsArePlus_start _)
  obtain ⟨hskip, hend⟩ := hstart.run (movesOf text) hcounts
  refine ⟨hskip, ?_, hend.elapsed, ?_⟩
  · intro n
    have hfirst : keepStart.countsAll .keepPrevious ((movesOf text).take n) = true := by
      rw [← List.take_append_drop n (movesOf text), MotionState.countsAll_append,
        Bool.and_eq_true] at hcounts
      exact hcounts.1
    exact (hstart.run _ hfirst).2.elapsed
  · rw [UInt64.le_iff_toNat_le]
    exact hend.skipSums.elapsed.roundToNat_mono hend.keepSums.elapsed hend.elapsed _

/-- The second and third of four moves take four seconds at the previous rate, and are skipped
in the other run. -/
theorem skipped_time_of_four_moves :
    let settings : FeedPolicy → EstimatorSettings := fun policy => ⟨.nan, policy⟩
    let text := "G1 X10 F600\nG1 X40 F0\nG0 Y10 F-5\nG1 X50 F300\n".toList
    let start := MotionState.start (settings .keepPrevious).startingFeedRate
    let after (policy : FeedPolicy) (n : Nat) :=
      (MotionState.run policy start ((movesOf text).take n)).elapsed
    start.countsAll .keepPrevious (movesOf text) = true ∧
      start.countsAll .skipMove (movesOf text) = true ∧
      after .keepPrevious 3 = 5 ∧ after .skipMove 3 = 1 ∧
      (∀ n, after .skipMove n ≤ after .keepPrevious n) ∧
      (simulate (settings .skipMove) text).seconds ≤
        (simulate (settings .keepPrevious) text).seconds ∧
      estimateSeconds (settings .skipMove) text ≤ estimateSeconds (settings .keepPrevious) text := by
  intro settings text start after
  have hcounts : start.countsAll .keepPrevious (movesOf text) = true := by decide +kernel
  have hkeep : after .keepPrevious 3 = 5 := by decide +kernel
  have hskip : after .skipMove 3 = 1 := by decide +kernel
  obtain ⟨hnone, htimes, hseconds, hestimates⟩ := skipping_never_takes_longer .nan text hcounts
  exact ⟨hcounts, hnone, hkeep, hskip, htimes, hseconds, hestimates⟩

/-- If a move overflows while the previous rate is kept, the skipping run can be the longer one. -/
example :
    let far : Binary64 := .ofNat (10 ^ 300)
    let slow : Binary64 := 6 / 10000000
    let moves : List Move := [{ x := some far, feedRate := some 0 },
      { x := some (far + far + far / 2), feedRate := some slow }]
    (MotionState.run .keepPrevious (.start slow) moves).elapsed <
      (MotionState.run .skipMove (.start slow) moves).elapsed := by
  decide +kernel

end PrintJob

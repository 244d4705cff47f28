/-
# Time and travel never fall

The length of a move has no minus sign, and neither has the time that it takes, a
quotient by a positive rate: a rate that is not positive takes no time at all. So a
move that counts adds nothing below zero, and one that does not leaves time and
travel as they were. The invariant is `MotionState.SumsArePlus`; a step keeps it and
lets neither sum fall (`MotionState.sums_step`), hence a run does
(`MotionState.sums_run`), whatever the position and the feed rate are.
-/
import PrintJob.Proofs.OneMove
import PrintJob.Proofs.RoundingOrder

namespace PrintJob

namespace MotionState

/-- Time and travel are finite and have no minus sign. -/
structure SumsArePlus (state : MotionState) : Prop where
  elapsed : state.elapsed.IsPlus
  distance : state.distance.IsPlus

/-- From one state to the other neither time nor travel falls. -/
structure SumsRise (state next : MotionState) : Prop where
  elapsed : state.elapsed ≤ next.elapsed
  distance : state.distance ≤ next.distance

theorem SumsRise.trans {a b c : MotionState} (hab : a.SumsRise b) (hbc : b.SumsRise c) :
    a.SumsRise c where
  elapsed := Binary64.le_trans hab.elapsed hbc.elapsed
  distance := Binary64.le_trans hab.distance hbc.distance

theorem SumsArePlus.sumsRise_self {state : MotionState} (h : state.SumsArePlus) :
    state.SumsRise state where
  elapsed := Binary64.le_refl h.elapsed.isFinite
  distance := Binary64.le_refl h.distance.isFinite

/-! ## One step -/

theorem isNegative_lengthOf (state : MotionState) (move : Move) :
    (state.lengthOf move).isNegative = false :=
  Binary64.isNegative_hypot _ _

/-- At a positive rate a length does not take a negative time. -/
theorem isNegative_time {feedRate length : Binary64} (hpositive : feedRate.isPositive = true)
    (hlength : length.isNegative = false) : (length / feedRate * 60).isNegative = false := by
  have hminutes : (length / feedRate).isNegative = false :=
    Binary64.isNegative_div hlength (Binary64.isNegative_of_isPositive hpositive)
  have hsixty : (60 : Binary64).isNegative = false := Binary64.isNegative_nearest false _ 1
  exact Binary64.isNegative_mul hminutes hsixty

/-- Travelling a length never lets the time fall, whatever the feed rate. -/
theorem elapsed_le_elapsedAfter {state : MotionState} {feedRate length : Binary64}
    (hstate : state.elapsed.IsPlus) (hlength : length.isNegative = false)
    (hfinite : (state.elapsedAfter feedRate length).isFinite = true) :
    state.elapsed ≤ state.elapsedAfter feedRate length ∧
      (state.elapsedAfter feedRate length).IsPlus := by
  unfold elapsedAfter at hfinite ⊢
  by_cases hpositive : feedRate.isPositive = true
  · rw [if_pos hpositive] at hfinite ⊢
    exact hstate.le_add (isNegative_time hpositive hlength) hfinite
  -- without a positive rate no time passes
  · rw [if_neg hpositive]
    exact ⟨Binary64.le_refl hstate.isFinite, hstate⟩

/-- **One move lets neither time nor travel fall**, from any position and at any rate. -/
theorem sums_step (policy : FeedPolicy) {state : MotionState} (move : Move)
    (h : state.SumsArePlus) :
    (step policy state move).SumsArePlus ∧ state.SumsRise (step policy state move) := by
  have hlength := isNegative_lengthOf state move
  by_cases hcounts : state.counts policy move = true
  · obtain ⟨htime, htravel⟩ := sums_step_of_counts hcounts
    obtain ⟨-, htimeFinite, htravelFinite⟩ := counts_iff.mp hcounts
    obtain ⟨htimeLe, htimePlus⟩ := elapsed_le_elapsedAfter h.elapsed hlength htimeFinite
    obtain ⟨htravelLe, htravelPlus⟩ := h.distance.le_add hlength htravelFinite
    rw [← htime] at htimeLe htimePlus
    rw [← htravel] at htravelLe htravelPlus
    exact ⟨⟨htimePlus, htravelPlus⟩, ⟨htimeLe, htravelLe⟩⟩
  -- a move that does not count adds a travel of zero
  · obtain ⟨htime, htravel⟩ := sums_step_of_not_counts hcounts
    obtain ⟨htravelLe, htravelPlus⟩ :=
      h.distance.le_add rfl (Binary64.isFinite_add_zero h.distance.isFinite)
    rw [← htravel] at htravelLe htravelPlus
    refine ⟨⟨?_, htravelPlus⟩, ⟨?_, htravelLe⟩⟩
    · rw [htime]
      exact h.elapsed
    · rw [htime]
      exact Binary64.le_refl h.elapsed.isFinite

/-! ## Runs -/

/-- **A run lets neither time nor travel fall.** -/
theorem sums_run (policy : FeedPolicy) {state : MotionState} (moves : List Move)
    (h : state.SumsArePlus) :
    (run policy state moves).SumsArePlus ∧ state.SumsRise (run policy state moves) := by
  refine run_induction (fun current => current.SumsArePlus ∧ state.SumsRise current) ?_
    ⟨h, h.sumsRise_self⟩
  rintro current ⟨hplus, hrise⟩ move -
  obtain ⟨hplusNext, hriseNext⟩ := sums_step policy move hplus
  exact ⟨hplusNext, hrise.trans hriseNext⟩

theorem sumsArePlus_start (feedRate : Binary64) : (start feedRate).SumsArePlus :=
  ⟨Binary64.isPlus_zero, Binary64.isPlus_zero⟩

end MotionState

/-! ## Texts -/

/-- **Time and travel of a text start at zero and never fall.** The state behind the
first `n` moves of a text has a time and a travel that are not negative, and any `k`
further moves leave both at least as large; the outcome is the state behind all moves. -/
theorem sums_start_at_zero_and_never_fall (settings : EstimatorSettings) (text : List Char) :
    let start := MotionState.start settings.startingFeedRate
    let after := fun n => MotionState.run settings.policy start ((movesOf text).take n)
    (after 0).elapsed = .zero ∧ (after 0).distance = .zero ∧
      (∀ n, .zero ≤ (after n).elapsed ∧ .zero ≤ (after n).distance) ∧
      (∀ n k, (after n).elapsed ≤ (after (n + k)).elapsed ∧
        (after n).distance ≤ (after (n + k)).distance) ∧
      simulate settings text = (after (movesOf text).length).toSimulation := by
  intro start after
  -- the invariant behind every number of moves
  have hplus : ∀ n, (after n).SumsArePlus := by
    intro n
    exact (MotionState.sums_run _ _ (MotionState.sumsArePlus_start _)).1
  refine ⟨rfl, rfl, ?_, ?_, ?_⟩
  · intro n
    exact ⟨(hplus n).elapsed.zero_le, (hplus n).distance.zero_le⟩
  · intro n k
    have hmore : after (n + k) =
        MotionState.run settings.policy (after n) (((movesOf text).drop n).take k) := by
      show MotionState.run _ _ ((movesOf text).take (n + k)) = _
      rw [List.take_add, MotionState.run_append]
    have hrise := (MotionState.sums_run settings.policy (((movesOf text).drop n).take k) (hplus n)).2
    rw [hmore]
    exact ⟨hrise.elapsed, hrise.distance⟩
  · show _ = (MotionState.run _ _ ((movesOf text).take (movesOf text).length)).toSimulation
    rw [List.take_length]
    rfl

end PrintJob

/-
# How long the configured feed rate matters

Runs of one text under one policy start in states that differ in nothing but the feed rate. A move
with a feed word that the policy takes forgets that rate: behind it both runs have the same rate,
and if they differed in nothing else so far, the same state (`MotionState.step_of_setsRate`). Where
the first move of a text has such a word, no part of the outcome depends on the configured rate
(`default_rate_until_first_word`).
-/
import PrintJob.Proofs.EndOfRun

namespace PrintJob

/-! ## Words that set the rate -/

/-- The move asks for a feed rate that the policy takes. -/
def Move.SetsRate (move : Move) (policy : FeedPolicy) : Prop :=
  ∃ requested, move.feedRate = some requested ∧ policy.takes requested = true

/-- The first line of the text that is a linear move sets the rate. -/
def FirstMoveSetsRate (policy : FeedPolicy) (text : List Char) : Prop :=
  ∃ line rest move, moveLines text = line :: rest ∧ Move.parse line = some move ∧
    move.SetsRate policy

theorem FirstMoveSetsRate.exists_movesOf_eq {policy : FeedPolicy} {text : List Char}
    (h : FirstMoveSetsRate policy text) :
    ∃ move rest, movesOf text = move :: rest ∧ move.SetsRate policy := by
  obtain ⟨line, rest, move, hlines, hparse, hsets⟩ := h
  refine ⟨move, rest.filterMap Move.parse, ?_, hsets⟩
  rw [movesOf_eq_filterMap, hlines, List.filterMap_cons_some hparse]

namespace MotionState

variable {policy : FeedPolicy} {move : Move}

/-! ## One move -/

/-- **A move that sets the rate forgets the one before**: states that differ in the rate alone are
the same behind it. -/
theorem step_of_setsRate (h : move.SetsRate policy) (state : MotionState) (rate : Binary64) :
    step policy { state with feedRate := rate } move = step policy state move := by
  obtain ⟨requested, hword, htakes⟩ := h
  have hrate : feedRateFor { state with feedRate := rate } policy move =
      state.feedRateFor policy move := by
    rw [feedRateFor_eq, feedRateFor_eq, hword, Option.filter_some, if_pos htakes]
    rfl
  -- the length of a move and the sums before it have nothing to do with the rate
  have hcounts : counts { state with feedRate := rate } policy move =
      state.counts policy move := by
    unfold counts
    rw [hrate]
    rfl
  unfold step
  rw [hrate, hcounts]
  rfl

/-! ## Runs -/

/-- If the first move sets the rate, it does not matter what the run started with. -/
theorem run_start_of_setsRate (h : move.SetsRate policy) (rest : List Move) (a b : Binary64) :
    run policy (start a) (move :: rest) = run policy (start b) (move :: rest) := by
  rw [run_cons, run_cons, ← step_of_setsRate h (start a) b]
  rfl

/-- Behind moves of which one sets the rate, all runs have the same rate. -/
theorem feedRate_run_of_setsRate {moves : List Move} (h : ∃ move ∈ moves, move.SetsRate policy)
    (a b : MotionState) : (run policy a moves).feedRate = (run policy b moves).feedRate := by
  have hview := fun state => run_view (fun state => state.feedRate)
    (fun state move => state.feedRateFor_eq policy move) state moves
  -- the last of the words that are taken is a word of one of the moves
  have hsome : (moves.findSomeRev? fun move => move.feedRate.filter policy.takes).isSome = true := by
    obtain ⟨move, hmem, requested, hword, htakes⟩ := h
    rw [List.findSomeRev?_eq_findSome?_reverse, List.findSome?_isSome_iff]
    refine ⟨move, List.mem_reverse.mpr hmem, ?_⟩
    rw [hword, Option.filter_some, if_pos htakes]
    rfl
  obtain ⟨last, hlast⟩ := Option.isSome_iff_exists.mp hsome
  rw [hview a, hview b, hlast]
  rfl

end MotionState

/-! ## Texts -/

/-- Whatever is configured, a rate that is not finite and positive is replaced by the built-in
one. -/
theorem EstimatorSettings.startingFeedRate_of_not_valid {rate : Binary64}
    (h : ¬ (rate.isFinite = true ∧ rate.isPositive = true)) (policy : FeedPolicy) :
    (EstimatorSettings.mk rate policy).startingFeedRate =
      (EstimatorSettings.mk 1200 policy).startingFeedRate := by
  have hdefault : (EstimatorSettings.mk 1200 policy).startingFeedRate = 1200 := ite_self _
  rw [hdefault, startingFeedRate, isValid, if_neg (by rw [Bool.and_eq_true]; exact h)]
  rfl

/-- **The configured feed rate matters until the first word that the policy takes.** If the first
linear move of a text has such a word, every state behind it and the outcome are the same for
any two configured rates, valid or not; and wherever the first such word stands, the rates in
effect behind it are the same. A configured rate that is not finite and positive does the same
as the built-in one on every text. -/
theorem default_rate_until_first_word (policy : FeedPolicy) (text : List Char) :
    let settings (rate : Binary64) : EstimatorSettings := ⟨rate, policy⟩
    let after (rate : Binary64) (n : Nat) :=
      MotionState.run policy (.start (settings rate).startingFeedRate) ((movesOf text).take n)
    (FirstMoveSetsRate policy text → ∀ a b,
      (∀ n, after a (n + 1) = after b (n + 1)) ∧
        simulate (settings a) text = simulate (settings b) text) ∧
    (∀ n, (∃ move ∈ (movesOf text).take n, move.SetsRate policy) → ∀ a b,
      (after a n).feedRate = (after b n).feedRate) ∧
    ∀ rate, ¬ (rate.isFinite = true ∧ rate.isPositive = true) →
      simulate (settings rate) text = simulate (settings 1200) text := by
  intro settings after
  refine ⟨?_, ?_, ?_⟩
  · intro hfirst a b
    obtain ⟨move, rest, hmoves, hsets⟩ := hfirst.exists_movesOf_eq
    constructor
    · intro n
      show MotionState.run _ _ ((movesOf text).take (n + 1)) =
        MotionState.run _ _ ((movesOf text).take (n + 1))
      rw [hmoves, List.take_succ_cons]
      exact MotionState.run_start_of_setsRate hsets _ _ _
    · unfold simulate finalState
      rw [hmoves]
      exact congrArg _ (MotionState.run_start_of_setsRate hsets rest _ _)
  · intro n hsome a b
    exact MotionState.feedRate_run_of_setsRate hsome _ _
  · intro rate hrate
    unfold simulate finalState
    rw [EstimatorSettings.startingFeedRate_of_not_valid hrate]

/-- A rate that is no number and one of 300 do the same in a text that begins with a move at a rate
of zero, if moves at such a rate are skipped. -/
theorem default_rate_before_zero_feed_word :
    let text := "; F5\nG28 F9\nG1 X10 F0\nG1 X20 E1\nG0 X30 F600\n".toList
    let settings (rate : Binary64) : EstimatorSettings := ⟨rate, .skipMove⟩
    let after (rate : Binary64) (n : Nat) :=
      MotionState.run .skipMove (.start (settings rate).startingFeedRate) ((movesOf text).take n)
    FirstMoveSetsRate .skipMove text ∧
      (∃ move ∈ (movesOf text).take 2, move.SetsRate .skipMove) ∧
      ¬ (Binary64.nan.isFinite = true ∧ Binary64.nan.isPositive = true) ∧
      (∀ n, after .nan (n + 1) = after 300 (n + 1)) ∧
      simulate (settings .nan) text = simulate (settings 300) text ∧
      (after .nan 2).feedRate = (after 300 2).feedRate ∧
      simulate (settings .nan) text = simulate (settings 1200) text := by
  intro text settings after
  let move : Move := { x := some 10, feedRate := some 0 }
  have hsets : move.SetsRate .skipMove := ⟨0, rfl, rfl⟩
  have hfirst : FirstMoveSetsRate .skipMove text := by
    have hlines : moveLines text =
        "G1 X10 F0".toList :: ["G1 X20 E1".toList, "G0 X30 F600".toList] := by decide +kernel
    have hparse : Move.parse "G1 X10 F0".toList = some move := by decide +kernel
    exact ⟨_, _, move, hlines, hparse, hsets⟩
  have hsome : ∃ move ∈ (movesOf text).take 2, move.SetsRate .skipMove := by
    have hmem : move ∈ (movesOf text).take 2 := by decide +kernel
    exact ⟨move, hmem, hsets⟩
  have hinvalid : ¬ (Binary64.nan.isFinite = true ∧ Binary64.nan.isPositive = true) := by decide
  obtain ⟨hsame, hrates, hdefault⟩ := default_rate_until_first_word .skipMove text
  obtain ⟨hstates, houtcome⟩ := hsame hfirst .nan 300
  exact ⟨hfirst, hsome, hinvalid, hstates, houtcome, hrates 2 hsome .nan 300,
    hdefault .nan hinvalid⟩

end PrintJob

/-
# The end of a run

A run goes over the lines that are linear moves, each of which has a move
(`movesOf_eq_filterMap`, `length_movesOf`). Of the position and the feed rate every
move sets what it has a word for and leaves the rest, also if its time and travel do
not count. So they are in the end what the last move with such a word says
(`simulate_eq_last_words`).
-/
import PrintJob.Proofs.CommentEdit
import PrintJob.Proofs.LastValue
import PrintJob.Proofs.OneMove

namespace PrintJob

/-! ## Lines that are linear moves -/

/-- The lines of a text that are linear moves, in order. -/
def moveLines (text : List Char) : List (List Char) := (lines text).filter isLinearMove

/-- A line that is a linear move has the move of its words: the first of them is a command. -/
theorem Move.parse_eq (line : List Char) :
    Move.parse line = if isLinearMove line then
      some (Move.ofCommand ⟨[], parametersOf (tokens line), none⟩) else none := by
  rw [Move.parse_eq_moveOfTokens]
  by_cases h : isLinearMove line = true
  · obtain ⟨number, tail, rfl, -⟩ := isLinearMove_iff.mp h
    rw [if_pos h, if_pos h, moveOfTokens_eq, tokens_G]
    rfl
  · rw [if_neg h, if_neg h]

/-- Exactly the lines that are linear moves have a move. -/
theorem Move.isSome_parse (line : List Char) : (Move.parse line).isSome = isLinearMove line := by
  rw [Move.parse_eq]
  cases isLinearMove line <;> rfl

/-- The moves of a text are those of its lines that are linear moves. -/
theorem movesOf_eq_filterMap (text : List Char) :
    movesOf text = (moveLines text).filterMap Move.parse := by
  rw [movesOf, moveLines, List.filterMap_filter]
  congr 1
  funext line
  by_cases h : isLinearMove line = true
  · rw [if_pos h]
  · have hparse := Move.isSome_parse line
    rw [Bool.eq_false_iff.mpr h, Option.isSome_eq_false_iff, Option.isNone_iff_eq_none] at hparse
    rw [if_neg h, hparse]

/-- There are as many moves as lines that are linear moves. -/
theorem length_movesOf (text : List Char) :
    (movesOf text).length = (moveLines text).length := by
  rw [movesOf, moveLines, List.length_filterMap_eq_countP, List.countP_eq_length_filter]
  congr 2
  funext line
  exact Move.isSome_parse line

/-! ## The last words of a text -/

/-- What the last line with a move that has a word says by that word. -/
def lastWord {β : Type} (word : Move → Option β) (ls : List (List Char)) : Option β :=
  ls.findSomeRev? fun line => (Move.parse line).bind word

/-- What moves replace by their word is after a run the last such word. -/
theorem MotionState.run_view {β : Type} (view : MotionState → β) {policy : FeedPolicy}
    {word : Move → Option β}
    (hstep : ∀ state move, view (step policy state move) = (word move).getD (view state))
    (state : MotionState) (moves : List Move) :
    view (run policy state moves) = (moves.findSomeRev? word).getD (view state) :=
  foldl_eq_getD view hstep state moves

/-- What moves replace by their word is in the end the last such word of the text. -/
theorem finalState_view {β : Type} (view : MotionState → β) {word : Move → Option β}
    {settings : EstimatorSettings} (hstep : ∀ state move,
      view (state.step settings.policy move) = (word move).getD (view state))
    (text : List Char) :
    view (finalState settings text) =
      (lastWord word (moveLines text)).getD (view (.start settings.startingFeedRate)) := by
  rw [finalState, MotionState.run_view view hstep, movesOf_eq_filterMap, findSomeRev?_filterMap]
  rfl

/-- **The end of a run in closed form.** All linear moves are counted. Each coordinate
is the last one given, or zero; the feed rate is the last one that the policy takes,
or the one that the run started with. -/
theorem simulate_eq_last_words (settings : EstimatorSettings) (text : List Char) :
    let outcome := simulate settings text
    outcome.moves = (moveLines text).length ∧
      outcome.finalPosition.x = (lastWord Move.x (moveLines text)).getD .zero ∧
      outcome.finalPosition.y = (lastWord Move.y (moveLines text)).getD .zero ∧
      outcome.finalPosition.z = (lastWord Move.z (moveLines text)).getD .zero ∧
      outcome.finalPosition.e = (lastWord Move.e (moveLines text)).getD .zero ∧
      outcome.finalFeedRate =
        (lastWord (fun move => move.feedRate.filter settings.policy.takes) (moveLines text)).getD
          (if settings.feedRate.isFinite && settings.feedRate.isPositive then settings.feedRate
            else 1200) := by
  intro outcome
  have hmoves : outcome.moves = (moveLines text).length := by
    show (MotionState.run _ _ (movesOf text)).moves = _
    rw [MotionState.moves_run, length_movesOf]
    exact Nat.zero_add _
  have hfeed : ∀ (state : MotionState) (move : Move), (state.step settings.policy move).feedRate =
      (move.feedRate.filter settings.policy.takes).getD state.feedRate := fun state move =>
    state.feedRateFor_eq settings.policy move
  exact ⟨hmoves,
    finalState_view (fun state => state.position.x) (fun _ _ => rfl) text,
    finalState_view (fun state => state.position.y) (fun _ _ => rfl) text,
    finalState_view (fun state => state.position.z) (fun _ _ => rfl) text,
    finalState_view (fun state => state.position.e) (fun _ _ => rfl) text,
    finalState_view (fun state => state.feedRate) hfeed text⟩

/-- A malformed word sets nothing, so the one before it is the last. -/
example : lastWord Move.x (moveLines "G1 X1 F600\nG0 X2 Y3\nG28 X9\nG1 X1.2.3 Z4".toList) = some 2 := by
  decide +kernel

end PrintJob

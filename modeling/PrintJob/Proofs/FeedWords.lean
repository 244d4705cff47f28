/-
# Feed words of any value

A run that keeps the previous rate is asked for rates of any value, also for an
infinity or for no number at all. The only test is whether the requested rate is
positive. It turns away zeros, negative rates, minus infinity and what is no number,
so the rate stays positive (`MotionState.isPositive_feedRate_run`). It lets plus
infinity through, and that alone makes the rate infinite. `MotionState.feedRate_along_run`
says so for every step of a run over any moves.
-/
import PrintJob.Proofs.EndOfRun

namespace PrintJob

/-! ## Positive rates -/

namespace Binary64

theorem isPositive_infinite : (infinite false).isPositive = true :=
  isPositive_eq_true_iff.mpr (Or.inl rfl)

/-- Plus infinity is the one positive double that is not finite. -/
theorem isFinite_iff_of_isPositive {x : Binary64} (h : x.isPositive = true) :
    x.isFinite = true ↔ x ≠ .infinite false := by
  rcases isPositive_eq_true_iff.mp h with rfl | ⟨m, rfl, -⟩
  · simp [isFinite]
  · simp [isFinite]

/-- A rate is of no use if it is not positive, or if it is plus infinity. -/
theorem not_finite_and_positive_iff {x : Binary64} :
    ¬ (x.isFinite = true ∧ x.isPositive = true) ↔
      ¬ x.isPositive = true ∨ x = .infinite false := by
  constructor
  · intro h
    by_cases hpositive : x.isPositive = true
    · have hfinite : ¬ x.isFinite = true := fun hfinite => h ⟨hfinite, hpositive⟩
      rw [isFinite_iff_of_isPositive hpositive, Decidable.not_not] at hfinite
      exact Or.inr hfinite
    · exact Or.inl hpositive
  · rintro (hpositive | rfl) ⟨hfinite, h⟩
    · exact hpositive h
    · exact Bool.false_ne_true hfinite

end Binary64

namespace MotionState

/-! ## One step -/

/-- The first `n + 1` moves are the first `n` and the one behind them. -/
theorem run_take_add_one (policy : FeedPolicy) (state : MotionState) {moves : List Move} {n : Nat}
    {move : Move} (h : moves[n]? = some move) :
    run policy state (moves.take (n + 1)) = step policy (run policy state (moves.take n)) move := by
  rw [List.take_add_one, h, run_append]
  rfl

/-- The rate behind a move is the positive one that it asks for, or else the one before. -/
theorem feedRate_step_keepPrevious (state : MotionState) (move : Move) :
    (step .keepPrevious state move).feedRate =
      (move.feedRate.filter Binary64.isPositive).getD state.feedRate :=
  state.feedRateFor_eq .keepPrevious move

/-- A word that is not positive leaves the rate, every other one replaces it. -/
theorem feedRate_step_of_word (state : MotionState) {move : Move} {requested : Binary64}
    (h : move.feedRate = some requested) :
    (step .keepPrevious state move).feedRate =
      if requested.isPositive then requested else state.feedRate := by
  rw [feedRate_step_keepPrevious, h, Option.filter_some]
  split <;> rfl

/-- Of the words that are not finite and positive, only plus infinity can replace the rate. -/
theorem feedRate_step_eq_iff (state : MotionState) {move : Move} {requested : Binary64}
    (h : move.feedRate = some requested)
    (hbad : ¬ (requested.isFinite = true ∧ requested.isPositive = true)) :
    (step .keepPrevious state move).feedRate = state.feedRate ↔
      requested ≠ .infinite false ∨ state.feedRate = .infinite false := by
  rw [feedRate_step_of_word state h]
  rcases Binary64.not_finite_and_positive_iff.mp hbad with hnot | rfl
  · have hne : requested ≠ .infinite false := by
      rintro rfl
      exact hnot Binary64.isPositive_infinite
    rw [if_neg hnot]
    exact ⟨fun _ => Or.inl hne, fun _ => rfl⟩
  · rw [if_pos Binary64.isPositive_infinite]
    constructor
    · intro heq
      exact Or.inr heq.symm
    · rintro (hne | heq)
      · exact absurd rfl hne
      · exact heq.symm

/-- A move that does not ask for plus infinity keeps the rate finite. -/
theorem isFinite_feedRate_step {state : MotionState} {move : Move}
    (hs : state.feedRate.isFinite = true) (hm : move.feedRate ≠ some (.infinite false)) :
    (step .keepPrevious state move).feedRate.isFinite = true := by
  cases hrequested : move.feedRate with
  | none =>
    rw [feedRate_step_keepPrevious, hrequested]
    exact hs
  | some requested =>
    rw [feedRate_step_of_word state hrequested]
    by_cases hpositive : requested.isPositive = true
    · rw [if_pos hpositive, Binary64.isFinite_iff_of_isPositive hpositive]
      rintro rfl
      exact hm hrequested
    · rw [if_neg hpositive]
      exact hs

/-! ## Runs -/

/-- Moves that do not ask for plus infinity keep the rate finite. -/
theorem isFinite_feedRate_run {state : MotionState} {moves : List Move}
    (hs : state.feedRate.isFinite = true)
    (hm : ∀ move ∈ moves, move.feedRate ≠ some (.infinite false)) :
    (run .keepPrevious state moves).feedRate.isFinite = true := by
  refine run_induction (fun current => current.feedRate.isFinite = true) ?_ hs
  intro current hcurrent move hmove
  exact isFinite_feedRate_step hcurrent (hm move hmove)

/-- Behind a move that asks for plus infinity the rate is infinite, however the run came there. -/
theorem feedRate_run_of_infinite (state : MotionState) {moves : List Move} {n : Nat} {move : Move}
    (hmove : moves[n]? = some move) (hword : move.feedRate = some (.infinite false)) :
    (run .keepPrevious state (moves.take (n + 1))).feedRate = .infinite false := by
  rw [run_take_add_one _ _ hmove, feedRate_step_of_word _ hword,
    if_pos Binary64.isPositive_infinite]

/-- **The feed rate along a run of any moves** that starts with a finite and positive
rate and keeps the previous one. Behind every move the rate is positive: it is the last
positive one asked for, or the one at the start. Words that are zero, negative, minus
infinity or no number never replace it. Plus infinity always does, and so all rates are
finite exactly if no move asks for it. -/
theorem feedRate_along_run {feedRate : Binary64} (moves : List Move)
    (hfinite : feedRate.isFinite = true) (hpositive : feedRate.isPositive = true) :
    let rate (n : Nat) := (run .keepPrevious (start feedRate) (moves.take n)).feedRate
    (∀ n, (rate n).isPositive = true ∧
      rate n = ((moves.take n).findSomeRev? fun move =>
        move.feedRate.filter Binary64.isPositive).getD feedRate) ∧
    (∀ n move requested, moves[n]? = some move → move.feedRate = some requested →
      ¬ (requested.isFinite = true ∧ requested.isPositive = true) →
      (rate (n + 1) = rate n ↔ requested ≠ .infinite false ∨ rate n = .infinite false)) ∧
    ((∀ n, (rate n).isFinite = true) ↔
      ∀ move ∈ moves, move.feedRate ≠ some (.infinite false)) := by
  intro rate
  refine ⟨fun n => ⟨?_, ?_⟩, ?_, ?_⟩
  · exact isPositive_feedRate_run (moves.take n) hpositive
  · exact run_view (fun state => state.feedRate) feedRate_step_keepPrevious (start feedRate)
      (moves.take n)
  · intro n move requested hmove hword hbad
    show (run _ _ (moves.take (n + 1))).feedRate = rate n ↔ _
    rw [run_take_add_one _ _ hmove]
    exact feedRate_step_eq_iff _ hword hbad
  · constructor
    · intro hall move hmove hword
      obtain ⟨n, hn⟩ := List.getElem?_of_mem hmove
      have hrate : rate (n + 1) = .infinite false := feedRate_run_of_infinite _ hn hword
      have hcontra := hall (n + 1)
      rw [hrate] at hcontra
      exact Bool.false_ne_true hcontra
    · intro hall n
      exact isFinite_feedRate_run hfinite fun move hmove => hall move (List.mem_of_mem_take hmove)

/-- No number, minus infinity, minus zero and a negative rate leave the first rate in effect. -/
theorem feedRate_along_useless_words :
    let useless : List Binary64 := [.nan, .infinite true, -.zero, -5]
    let moves : List Move := useless.map fun requested => { feedRate := some requested }
    let rate (n : Nat) := (run .keepPrevious (start 1200) (moves.take n)).feedRate
    (1200 : Binary64).isFinite = true ∧ (1200 : Binary64).isPositive = true ∧
      (∀ n, (rate n).isFinite = true ∧ (rate n).isPositive = true) ∧
      rate 1 = rate 0 ∧ rate 4 = 1200 := by
  intro useless moves rate
  have hfinite : (1200 : Binary64).isFinite = true := by decide +kernel
  have hpositive : (1200 : Binary64).isPositive = true := by decide +kernel
  obtain ⟨hrates, hword, hall⟩ := feedRate_along_run moves hfinite hpositive
  have hnone : ∀ move ∈ moves, move.feedRate ≠ some (.infinite false) := by decide +kernel
  refine ⟨hfinite, hpositive, fun n => ⟨hall.mpr hnone n, (hrates n).1⟩, ?_, ?_⟩
  · exact (hword 0 { feedRate := some .nan } .nan rfl rfl (by decide)).mpr (Or.inl (by decide))
  · exact (hrates 4).2.trans (by decide +kernel)

/-- Plus infinity replaces a finite and positive rate. -/
theorem feedRate_run_plus_infinity :
    let moves : List Move := [{ feedRate := some (.infinite false) }]
    (1200 : Binary64).isFinite = true ∧ (1200 : Binary64).isPositive = true ∧
      (run .keepPrevious (start 1200) moves).feedRate = .infinite false ∧
      ¬ (run .keepPrevious (start 1200) moves).feedRate.isFinite = true := by
  decide +kernel

end MotionState

end PrintJob

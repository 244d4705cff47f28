/-
# Moves that stay where they are

A move takes nothing if it gives the head no coordinate but those that it has already: its length
is zero, and at any feed rate that takes no time. This needs the head to be at a finite place, as
it is along every run; an infinity less itself is no number. It also needs that neither time nor
travel is a negative zero, which the sum with a zero would turn round.

The second of two equal moves is such a move, so it changes nothing but the number of moves
(`MotionState.step_step`).
-/
import PrintJob.Proofs.RisingSums

namespace PrintJob

/-! ## Zeros -/

namespace Binary64

/-- What is numerically equal to a finite double is finite. -/
theorem isFinite_of_numEq {x y : Binary64} (hy : y.isFinite = true) (h : x.numEq y = true) :
    x.isFinite = true := by
  obtain ⟨t, b, rfl⟩ := isFinite_iff.mp hy
  have hlt := b.units_lt
  cases x with
  | finite s a => rfl
  | nan => cases h
  | infinite s =>
    -- an infinity has its place outside the finite ones
    cases s <;> cases t <;> simp [numEq, compares, place, signedUnits] at h <;> omega

theorem signedUnits_not (negative : Bool) (m : Magnitude) :
    signedUnits (!negative) m = -signedUnits negative m := by
  cases negative <;> simp [signedUnits]

/-- The difference of numerically equal doubles is a zero, if they are finite. -/
theorem sub_of_numEq {x y : Binary64} (hy : y.isFinite = true) (h : x.numEq y = true) :
    ∃ negative, x - y = .finite negative .zero := by
  obtain ⟨s, a, rfl⟩ := isFinite_iff.mp (isFinite_of_numEq hy h)
  obtain ⟨t, b, rfl⟩ := isFinite_iff.mp hy
  have hsum : signedUnits s a + signedUnits (!t) b = 0 := by
    rw [signedUnits_not, numEq_finite_iff.mp h]
    omega
  refine ⟨s && !t, ?_⟩
  show ofUnits (s && !t) (signedUnits s a + signedUnits (!t) b) = _
  rw [ofUnits, if_pos hsum]

theorem nearest_zero (negative : Bool) {den : Nat} (h : 0 < den) :
    nearest negative 0 den = .finite negative .zero := by
  rw [nearest, Magnitude.nearest_zero h]

/-- The long side is zero if both legs are. -/
theorem hypot_zeros (s t : Bool) : hypot (.finite s .zero) (.finite t .zero) = zero := by
  show nearestSqrt (0 * 0 + 0 * 0) = zero
  have hroot : floorSqrt (4 * (0 * 0 + 0 * 0)) = 0 := floorSqrt_sq 0
  rw [nearestSqrt, hroot]
  exact nearest_zero false (by decide)

theorem zero_div_of_isPositive {y : Binary64} (h : y.isPositive = true) : zero / y = zero := by
  rcases isPositive_eq_true_iff.mp h with rfl | ⟨m, rfl, hm⟩
  · rfl
  · show (if m.units = 0 then if (0 : Nat) = 0 then nan else infinite false
      else nearest false (0 * Magnitude.one) m.units) = zero
    rw [if_neg hm, Nat.zero_mul]
    exact nearest_zero false (Nat.pos_of_ne_zero hm)

theorem zero_mul_finite (negative : Bool) (m : Magnitude) :
    zero * .finite negative m = .finite negative .zero := by
  show nearest (false ^^ negative) (0 * m.units) Magnitude.one = _
  rw [Bool.false_xor, Nat.zero_mul]
  exact nearest_zero negative Magnitude.one_pos

/-- Adding the positive zero changes nothing where there is no minus sign. -/
theorem IsPlus.add_zero {x : Binary64} (h : x.IsPlus) : x + zero = x := by
  obtain ⟨m, rfl⟩ := h
  rw [finite_add_zero]
  by_cases hm : m.units = 0
  · have hzero : m = .zero := Magnitude.ext hm
    rw [if_pos hm, hzero]
    rfl
  · rw [if_neg hm]

end Binary64

/-! ## Moves without a way -/

/-- Every coordinate that the move gives the head is numerically the one that it has already. -/
structure Move.KeepsHead (move : Move) (start : Position) : Prop where
  x : ∀ value, move.x = some value → value.numEq start.x = true
  y : ∀ value, move.y = some value → value.numEq start.y = true
  z : ∀ value, move.z = some value → value.numEq start.z = true

/-- A coordinate that is not given, or is given as it was, differs by a zero. -/
theorem getD_sub_self {given : Option Binary64} {old : Binary64} (hold : old.isFinite = true)
    (h : ∀ value, given = some value → value.numEq old = true) :
    ∃ negative, given.getD old - old = .finite negative .zero := by
  cases given with
  | none => exact Binary64.sub_of_numEq hold (Binary64.numEq_self hold)
  | some value => exact Binary64.sub_of_numEq hold (h value rfl)

/-- A move leads to where it leads from its own end. -/
theorem Move.target_target (move : Move) (start : Position) :
    move.target (move.target start) = move.target start := by
  have hgetD : ∀ (given : Option Binary64) (old : Binary64),
      given.getD (given.getD old) = given.getD old := by
    intro given old
    cases given <;> rfl
  simp only [target, hgetD]

/-- From its own end a move keeps the head. -/
theorem Move.IsFinite.keepsHead {move : Move} (h : move.IsFinite) (start : Position) :
    move.KeepsHead (move.target start) := by
  have hgiven : ∀ (given : Option Binary64) (old : Binary64),
      (∀ value, given = some value → value.isFinite = true) →
      ∀ value, given = some value → value.numEq (given.getD old) = true := by
    intro given old hfinite value hvalue
    rw [hvalue]
    exact Binary64.numEq_self (hfinite value hvalue)
  exact ⟨hgiven move.x start.x h.x, hgiven move.y start.y h.y, hgiven move.z start.z h.z⟩

namespace MotionState

attribute [ext] MotionState

variable {state : MotionState} {move : Move}

/-- The way of a move that keeps the head is zero. -/
theorem lengthOf_of_keepsHead (hposition : state.position.IsFinite)
    (h : move.KeepsHead state.position) : state.lengthOf move = .zero := by
  obtain ⟨s, hx⟩ := getD_sub_self hposition.x h.x
  obtain ⟨t, hy⟩ := getD_sub_self hposition.y h.y
  obtain ⟨u, hz⟩ := getD_sub_self hposition.z h.z
  show ((move.x.getD _ - _).hypot (move.y.getD _ - _)).hypot (move.z.getD _ - _) = _
  rw [hx, hy, hz, Binary64.hypot_zeros]
  exact Binary64.hypot_zeros false u

/-- A way of zero takes no time at any feed rate. -/
theorem elapsedAfter_zero (h : state.elapsed.IsPlus) (feedRate : Binary64) :
    state.elapsedAfter feedRate .zero = state.elapsed := by
  unfold elapsedAfter
  by_cases hpositive : feedRate.isPositive = true
  · have hsixty : Binary64.zero * 60 = .zero := by
      show Binary64.zero * .ofNat 60 = _
      rw [Binary64.ofNat_eq_finite (by decide), Binary64.zero_mul_finite]
      rfl
    rw [if_pos hpositive, Binary64.zero_div_of_isPositive hpositive, hsixty, h.add_zero]
  · rw [if_neg hpositive]

/-- **A move that keeps the head takes neither time nor travel**, whatever it says about the
extruder and the feed rate. -/
theorem sums_step_of_keepsHead (policy : FeedPolicy) (hposition : state.position.IsFinite)
    (hsums : state.SumsArePlus) (h : move.KeepsHead state.position) :
    (step policy state move).elapsed = state.elapsed ∧
      (step policy state move).distance = state.distance := by
  have hlength := lengthOf_of_keepsHead hposition h
  by_cases hcounts : state.counts policy move = true
  · obtain ⟨htime, htravel⟩ := sums_step_of_counts hcounts
    rw [htime, htravel, hlength]
    exact ⟨elapsedAfter_zero hsums.elapsed _, hsums.distance.add_zero⟩
  · obtain ⟨htime, htravel⟩ := sums_step_of_not_counts hcounts
    rw [htime, htravel]
    exact ⟨rfl, hsums.distance.add_zero⟩

/-- The rate that a move has set is the one that it sets. -/
theorem feedRate_step_step (policy : FeedPolicy) (state : MotionState) (move : Move) :
    (step policy (step policy state move) move).feedRate = (step policy state move).feedRate := by
  show (step policy state move).feedRateFor policy move = state.feedRateFor policy move
  rw [feedRateFor_eq, feedRateFor_eq, feedRate_step, feedRateFor_eq]
  cases move.feedRate.filter policy.takes <;> rfl

/-- **The second of two equal moves is counted and does nothing else.** -/
theorem step_step (policy : FeedPolicy) (hstate : state.IsFinite) (hsums : state.SumsArePlus)
    (hmove : move.IsFinite) :
    step policy (step policy state move) move =
      { step policy state move with moves := (step policy state move).moves + 1 } := by
  have hfinite := (isFinite_step policy hstate hmove).position
  have hplus := (sums_step policy move hsums).1
  obtain ⟨htime, htravel⟩ :=
    sums_step_of_keepsHead policy hfinite hplus (hmove.keepsHead state.position)
  refine MotionState.ext ?_ (feedRate_step_step policy state move) htime htravel rfl
  exact move.target_target state.position

end MotionState

/-! ## Texts -/

/-- **A move that does not displace the head takes nothing.** Behind any number of moves of a text,
a move that gives the head no coordinates but those that it has numerically takes neither time nor
travel: both stay exactly as they are, under either policy and whatever else the move says. So of
two equal moves in a row that a line gives, the second changes only the number of moves. -/
theorem standing_moves_take_nothing (settings : EstimatorSettings) (text : List Char) (n : Nat) :
    let state := MotionState.run settings.policy (.start settings.startingFeedRate)
      ((movesOf text).take n)
    (∀ (policy : FeedPolicy) (move : Move), move.KeepsHead state.position →
      (state.step policy move).elapsed = state.elapsed ∧
        (state.step policy move).distance = state.distance) ∧
    ∀ (policy : FeedPolicy) (line : List Char) (move : Move), Move.parse line = some move →
      let next := state.step policy move
      next.step policy move = { next with moves := next.moves + 1 } := by
  intro state
  have hfinite : state.IsFinite := by
    have hstart := MotionState.isFinite_start settings.startingFeedRate_spec.1
    refine MotionState.isFinite_run _ hstart ?_
    intro move hmove
    exact isFinite_of_mem_movesOf (List.mem_of_mem_take hmove)
  have hsums : state.SumsArePlus :=
    (MotionState.sums_run _ _ (MotionState.sumsArePlus_start _)).1
  constructor
  · intro policy move hkeeps
    exact MotionState.sums_step_of_keepsHead policy hfinite.position hsums hkeeps
  · intro policy line move hparse
    exact MotionState.step_step policy hfinite hsums (Move.isFinite_of_parse hparse)

/-- A move from a negative zero to the positive one, at an infinite rate and with an extruder
value that is no number, takes nothing; and neither does the second of two moves at a rate of
zero. -/
theorem standing_moves_behind_one_move :
    let settings : EstimatorSettings := ⟨.nan, .skipMove⟩
    let text := "G1 X10 Y-0 F600\nG1 X20\n".toList
    let state := MotionState.run settings.policy (.start settings.startingFeedRate)
      ((movesOf text).take 1)
    let standing : Move :=
      { x := some 10, y := some 0, e := some .nan, feedRate := some (.infinite false) }
    let rising : Move := { z := some 3, feedRate := some 0 }
    let next := state.step .skipMove rising
    state.position = ⟨10, -.zero, 0, 0⟩ ∧ standing.KeepsHead state.position ∧
      (state.step .keepPrevious standing).elapsed = state.elapsed ∧
      (state.step .keepPrevious standing).distance = state.distance ∧
      Move.parse "G0Z3F0".toList = some rising ∧
      next.step .skipMove rising = { next with moves := next.moves + 1 } := by
  intro settings text state standing rising next
  have hposition : state.position = ⟨10, -.zero, 0, 0⟩ := by decide +kernel
  have hkeeps : standing.KeepsHead state.position := by
    have hx : (10 : Binary64).numEq 10 = true := by decide +kernel
    have hy : (0 : Binary64).numEq (-.zero) = true := by decide +kernel
    rw [hposition]
    refine ⟨?_, ?_, ?_⟩
    · rintro _ ⟨⟩
      exact hx
    · rintro _ ⟨⟩
      exact hy
    · rintro _ ⟨⟩
  have hparse : Move.parse "G0Z3F0".toList = some rising := by decide +kernel
  obtain ⟨hstanding, htwice⟩ := standing_moves_take_nothing settings text 1
  obtain ⟨htime, htravel⟩ := hstanding .keepPrevious standing hkeeps
  exact ⟨hposition, hkeeps, htime, htravel, hparse, htwice .skipMove _ rising hparse⟩

end PrintJob

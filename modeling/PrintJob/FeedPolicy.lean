/-
# Feed rates

What a feed word does to the feed rate in effect. A positive rate always takes
effect; a `FeedPolicy` says what happens to one that is zero, negative or no
number.
-/
import PrintJob.Binary64.Arithmetic

namespace PrintJob

/-- What a requested feed rate that is not positive does. -/
inductive FeedPolicy where
  /-- It is ignored, and the previous rate stays in effect. -/
  | keepPrevious
  /-- It takes effect, and moves at such a rate take no time. -/
  | skipMove
deriving DecidableEq, Inhabited

namespace FeedPolicy

/-- The name of a policy in arguments and settings files. -/
def name : FeedPolicy → String
  | .keepPrevious => "keep-previous"
  | .skipMove => "skip-move"

/-- The policy with a name. -/
def ofName? (name : String) : Option FeedPolicy :=
  if name = "keep-previous" then some .keepPrevious
  else if name = "skip-move" then some .skipMove
  else none

@[simp]
theorem ofName?_name (policy : FeedPolicy) : ofName? policy.name = some policy := by
  cases policy <;> rfl

/-- The rate in effect after `requested` was asked for while `current` was in effect. -/
def nextFeedRate (policy : FeedPolicy) (current requested : Binary64) : Binary64 :=
  if requested.isPositive then requested
  else match policy with
    | .keepPrevious => current
    | .skipMove => requested

theorem nextFeedRate_of_isPositive (policy : FeedPolicy) (current : Binary64)
    {requested : Binary64} (h : requested.isPositive = true) :
    policy.nextFeedRate current requested = requested := by
  simp [nextFeedRate, h]

@[simp]
theorem nextFeedRate_skipMove (current requested : Binary64) :
    skipMove.nextFeedRate current requested = requested := by
  simp [nextFeedRate]

/-- Keeping the previous rate keeps the rate positive. -/
theorem isPositive_nextFeedRate_keepPrevious {current : Binary64}
    (h : current.isPositive = true) (requested : Binary64) :
    (keepPrevious.nextFeedRate current requested).isPositive = true := by
  unfold nextFeedRate
  split <;> assumption

end FeedPolicy

end PrintJob

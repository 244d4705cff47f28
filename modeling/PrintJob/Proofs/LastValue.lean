/-
# The last value along a list

Let every element of a list give a value or none. A fold in which an element
replaces what is known by its value, and leaves it alone if it has none, ends with
the value of the last element that has one (`foldl_eq_or`, `foldl_eq_getD`). For
that value `List.findSomeRev?` is the function of the library.
-/

namespace PrintJob

variable {α β γ σ : Type}

/-! ## The last value of a longer list -/

/-- An element in front only matters if none behind it has a value. -/
theorem findSomeRev?_cons (f : α → Option β) (x : α) (xs : List α) :
    (x :: xs).findSomeRev? f = (xs.findSomeRev? f).or (f x) := by
  rw [List.findSomeRev?]
  cases xs.findSomeRev? f with
  | none => rfl
  | some value => rfl

/-- The last value is the last of all values. -/
theorem findSomeRev?_eq_getLast? (f : α → Option β) (xs : List α) :
    xs.findSomeRev? f = (xs.filterMap f).getLast? := by
  rw [List.findSomeRev?_eq_findSome?_reverse, List.getLast?_filterMap]

/-- Values may be taken in two goes. -/
theorem findSomeRev?_filterMap (g : α → Option β) (f : β → Option γ) (xs : List α) :
    (xs.filterMap g).findSomeRev? f = xs.findSomeRev? fun x => (g x).bind f := by
  rw [findSomeRev?_eq_getLast?, findSomeRev?_eq_getLast?, List.filterMap_filterMap]

/-- The last value is that of an element behind which none has a value. -/
theorem findSomeRev?_eq_some_iff {f : α → Option β} {xs : List α} {value : β} :
    xs.findSomeRev? f = some value ↔
      ∃ before x after, xs = before ++ x :: after ∧ f x = some value ∧
        ∀ y ∈ after, f y = none := by
  rw [List.findSomeRev?_eq_findSome?_reverse, List.findSome?_eq_some_iff]
  constructor
  · rintro ⟨after, x, before, hreverse, hx, hafter⟩
    refine ⟨before.reverse, x, after.reverse, ?_, hx, ?_⟩
    · rw [← List.reverse_reverse xs, hreverse, List.reverse_append, List.reverse_cons,
        List.append_assoc, List.singleton_append]
    · intro y hy
      exact hafter y (List.mem_reverse.mp hy)
  · rintro ⟨before, x, after, rfl, hx, hafter⟩
    refine ⟨after.reverse, x, before.reverse, ?_, hx, ?_⟩
    · rw [List.reverse_append, List.reverse_cons, List.append_assoc, List.singleton_append]
    · intro y hy
      exact hafter y (List.mem_reverse.mp hy)

/-! ## Folds that keep the last value -/

/-- What may be absent is absent in the end only if it was so at the start and no
element has a value. -/
theorem foldl_eq_or (view : σ → Option β) {step : σ → α → σ} {f : α → Option β}
    (hstep : ∀ s x, view (step s x) = (f x).or (view s)) (s : σ) (xs : List α) :
    view (xs.foldl step s) = (xs.findSomeRev? f).or (view s) := by
  induction xs generalizing s with
  | nil => rfl
  | cons x xs ih => rw [List.foldl_cons, ih, hstep, findSomeRev?_cons, Option.or_assoc]

/-- What is always present starts with a value of its own. -/
theorem foldl_eq_getD (view : σ → β) {step : σ → α → σ} {f : α → Option β}
    (hstep : ∀ s x, view (step s x) = (f x).getD (view s)) (s : σ) (xs : List α) :
    view (xs.foldl step s) = (xs.findSomeRev? f).getD (view s) := by
  have hsome : ∀ s x, some (view (step s x)) = (f x).or (some (view s)) := fun s x => by
    rw [hstep, Option.or_some]
  have hfold := foldl_eq_or (fun s => some (view s)) hsome s xs
  rw [Option.or_some] at hfold
  exact Option.some.inj hfold

end PrintJob

/-
# Runs of characters

A run of characters with a property is maximal when it is followed by the end of
the text or by a character without the property. `takeWhile` and `dropWhile` split
a text exactly behind such a run.

Which ASCII characters have a property is decided by trying all of them (`of_ascii`).
-/

namespace PrintJob

/-- What holds of all 128 ASCII characters holds of each of them. -/
theorem of_ascii {P : Char → Prop} (h : ∀ n < 128, P (Char.ofNat n)) {c : Char}
    (hc : c.toNat < 128) : P c := by
  have hn := h c.toNat hc
  rwa [Char.ofNat_toNat] at hn

/-- The text does not begin with a character that has the property. -/
def StopsRun (p : Char → Bool) (cs : List Char) : Prop := ∀ c, cs.head? = some c → p c = false

variable {p : Char → Bool}

theorem stopsRun_nil : StopsRun p [] := by
  intro c h
  cases h

theorem stopsRun_cons {c : Char} {cs : List Char} : StopsRun p (c :: cs) ↔ p c = false := by
  simp [StopsRun]

theorem takeWhile_of_stopsRun {rest : List Char} (h : StopsRun p rest) : rest.takeWhile p = [] := by
  cases rest with
  | nil => rfl
  | cons c cs => rw [List.takeWhile_cons_of_neg (by simp [stopsRun_cons.mp h])]

theorem dropWhile_of_stopsRun {rest : List Char} (h : StopsRun p rest) :
    rest.dropWhile p = rest := by
  cases rest with
  | nil => rfl
  | cons c cs => rw [List.dropWhile_cons_of_neg (by simp [stopsRun_cons.mp h])]

/-- What stays when a run is dropped does not continue it. -/
theorem stopsRun_dropWhile (p : Char → Bool) (cs : List Char) : StopsRun p (cs.dropWhile p) := by
  intro c h
  have hhead := List.head?_dropWhile_not p cs
  rw [h] at hhead
  exact hhead

/-- A maximal run is what `takeWhile` takes. -/
theorem takeWhile_run {run rest : List Char} (hrun : ∀ c ∈ run, p c = true)
    (hrest : StopsRun p rest) : (run ++ rest).takeWhile p = run := by
  rw [List.takeWhile_append_of_pos hrun, takeWhile_of_stopsRun hrest, List.append_nil]

/-- What follows a maximal run is what `dropWhile` leaves. -/
theorem dropWhile_run {run rest : List Char} (hrun : ∀ c ∈ run, p c = true)
    (hrest : StopsRun p rest) : (run ++ rest).dropWhile p = rest := by
  rw [List.dropWhile_append_of_pos hrun, dropWhile_of_stopsRun hrest]

theorem of_mem_takeWhile {c : Char} {cs : List Char} (h : c ∈ cs.takeWhile p) : p c = true :=
  List.all_eq_true.mp (List.all_takeWhile) c h

/-- A longer text has the same first run if what was added does not continue it. -/
theorem takeWhile_append_of_stopsRun (cs : List Char) {rest : List Char} (h : StopsRun p rest) :
    (cs ++ rest).takeWhile p = cs.takeWhile p := by
  induction cs with
  | nil => exact takeWhile_of_stopsRun h
  | cons c cs ih =>
    by_cases hc : p c = true
    · rw [List.cons_append, List.takeWhile_cons_of_pos hc, List.takeWhile_cons_of_pos hc, ih]
    · rw [List.cons_append, List.takeWhile_cons_of_neg hc, List.takeWhile_cons_of_neg hc]

/-- What was added stays behind the first run if it does not continue it. -/
theorem dropWhile_append_of_stopsRun (cs : List Char) {rest : List Char} (h : StopsRun p rest) :
    (cs ++ rest).dropWhile p = cs.dropWhile p ++ rest := by
  induction cs with
  | nil => exact dropWhile_of_stopsRun h
  | cons c cs ih =>
    by_cases hc : p c = true
    · rw [List.cons_append, List.dropWhile_cons_of_pos hc, List.dropWhile_cons_of_pos hc, ih]
    · rw [List.cons_append, List.dropWhile_cons_of_neg hc, List.dropWhile_cons_of_neg hc,
        List.cons_append]

end PrintJob

/-
# Lines as rows

The *rows* of a text are what stands between its newlines. A line is a row without
the carriage return at its end; only behind the last newline a carriage return
stays, and an empty row there is no line. Proofs about all texts go row by row
(`rowInduction`).
-/
import PrintJob.Text.Lines

namespace PrintJob

/-! ## Induction over rows -/

/-- A property holds of all texts if it holds of texts without a newline and is kept
when a row with its newline is put in front. -/
@[elab_as_elim]
theorem rowInduction {motive : List Char → Prop}
    (last : ∀ row, '\n' ∉ row → motive row)
    (row : ∀ row rest, '\n' ∉ row → motive rest → motive (row ++ '\n' :: rest))
    (text : List Char) : motive text := by
  by_cases h : '\n' ∈ text
  · obtain ⟨first, rest, htext, hfirst⟩ := List.eq_append_cons_of_mem h
    have hlength : rest.length < text.length := by
      rw [htext, List.length_append, List.length_cons]
      omega
    rw [htext]
    exact row first rest hfirst (rowInduction last row rest)
  · exact last text h
termination_by text.length

/-! ## The line of a row -/

/-- A row without the carriage return at its end. -/
def dropReturn : List Char → List Char
  | [] => []
  | c :: cs => if c = '\r' ∧ cs = [] then [] else c :: dropReturn cs

/-- At most one carriage return is dropped. -/
theorem eq_dropReturn_or (row : List Char) :
    row = dropReturn row ∨ row = dropReturn row ++ ['\r'] := by
  induction row with
  | nil => exact Or.inl rfl
  | cons c cs ih =>
    rw [dropReturn]
    by_cases h : c = '\r' ∧ cs = []
    · rw [if_pos h, h.1, h.2]
      exact Or.inr rfl
    · rw [if_neg h, List.cons_append]
      exact ih.imp (congrArg (List.cons c)) (congrArg (List.cons c))

/-- The first line of a text is its first row without a carriage return. -/
theorem lines_row_newline {row : List Char} (h : '\n' ∉ row) (rest : List Char) :
    lines (row ++ '\n' :: rest) = dropReturn row :: lines rest := by
  induction row with
  | nil => exact lines_newline rest
  | cons c cs ih =>
    rw [List.mem_cons, not_or] at h
    rw [dropReturn]
    by_cases hc : c = '\r' ∧ cs = []
    · rw [if_pos hc, hc.1, hc.2]
      exact lines_return_newline rest
    · have hreturn : c = '\r' → ∀ tail, cs ++ '\n' :: rest ≠ '\n' :: tail := by
        intro hr tail htail
        cases cs with
        | nil => exact hc ⟨hr, rfl⟩
        | cons d cs => exact h.2 ((List.cons.inj htail).1 ▸ List.mem_cons_self)
      rw [if_neg hc, List.cons_append, lines_cons (Ne.symm h.1) hreturn, ih h.2]
      rfl

/-- A text without a newline is one line, unless it is empty. -/
theorem lines_row {row : List Char} (h : '\n' ∉ row) (hne : row ≠ []) : lines row = [row] := by
  induction row with
  | nil => exact absurd rfl hne
  | cons c cs ih =>
    rw [List.mem_cons, not_or] at h
    have hreturn : c = '\r' → ∀ tail, cs ≠ '\n' :: tail := by
      rintro - tail rfl
      exact h.2 List.mem_cons_self
    rw [lines_cons (Ne.symm h.1) hreturn]
    cases cs with
    | nil => rfl
    | cons d cs =>
      rw [ih h.2 (List.cons_ne_nil d cs)]
      rfl

theorem mem_of_mem_dropReturn {c : Char} {row : List Char} (h : c ∈ dropReturn row) : c ∈ row := by
  rcases eq_dropReturn_or row with hsame | hreturn
  · rw [hsame]
    exact h
  · rw [hreturn]
    exact List.mem_append_left _ h

/-- No line has a newline in it. -/
theorem newline_not_mem_of_mem_lines {line text : List Char} (h : line ∈ lines text) :
    '\n' ∉ line := by
  induction text using rowInduction with
  | last row hrow =>
    by_cases hempty : row = []
    · rw [hempty] at h
      cases h
    · rw [lines_row hrow hempty, List.mem_singleton] at h
      exact h ▸ hrow
  | row row rest hrow ih =>
    rw [lines_row_newline hrow] at h
    rcases List.mem_cons.mp h with hfirst | hrest
    · rw [hfirst]
      exact mt mem_of_mem_dropReturn hrow
    · exact ih hrest

/-! ## Folding over lines or rows -/

/-- What ignores empty lines and carriage returns at the end finds the same in the
rows as in the lines. -/
theorem filterMap_lines {β : Type} {f : List Char → Option β} (hnil : f [] = none)
    (hreturn : ∀ row, f (row ++ ['\r']) = f row) (text : List Char) :
    (lines text).filterMap f = (text.splitOn '\n').filterMap f := by
  have hdrop : ∀ row, f (dropReturn row) = f row := by
    intro row
    rcases eq_dropReturn_or row with h | h
    · rw [← h]
    · rw [h, hreturn, ← h]
  induction text using rowInduction with
  | last row h =>
    rw [List.splitOn_eq_singleton h]
    by_cases hne : row = []
    · rw [hne, lines_nil, List.filterMap_cons_none hnil]
    · rw [lines_row h hne]
  | row row rest h ih =>
    rw [lines_row_newline h, List.splitOn_append_cons_self_of_not_mem h, List.filterMap_cons,
      List.filterMap_cons, hdrop, ih]

end PrintJob

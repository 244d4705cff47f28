/-
# Lines of a text

A line ends at a newline. One carriage return directly before the newline belongs
to the line end and not to the line; a last line without a newline keeps its
carriage return, and a text that ends with a newline has no further, empty line.

The text is read from its end, so that a long text needs no deep recursion. Main
statements: `lines_newline`, `lines_return_newline` and `lines_cons` say how one
more character in front changes the lines.
-/

namespace PrintJob

/-! ## Reading backwards -/

/-- The lines of what follows a position, and whether a newline stands there. -/
structure LinesAhead where
  atNewline : Bool
  lines : List (List Char)

/-- Puts a character in front of the first line. -/
def consFirstLine (c : Char) : List (List Char) → List (List Char)
  | [] => [[c]]
  | line :: rest => (c :: line) :: rest

/-- Moves one character back. -/
def LinesAhead.back (c : Char) (ahead : LinesAhead) : LinesAhead :=
  if c = '\n' then ⟨true, [] :: ahead.lines⟩
  else if c = '\r' ∧ ahead.atNewline = true then ⟨false, ahead.lines⟩
  else ⟨false, consFirstLine c ahead.lines⟩

/-- The lines ahead of the start of a text. -/
def linesAhead (cs : List Char) : LinesAhead := cs.foldr LinesAhead.back ⟨false, []⟩

/-- The lines of a text. -/
def lines (cs : List Char) : List (List Char) := (linesAhead cs).lines

/-! ## One more character in front -/

theorem linesAhead_cons (c : Char) (cs : List Char) :
    linesAhead (c :: cs) = (linesAhead cs).back c := rfl

@[simp]
theorem lines_nil : lines [] = [] := rfl

/-- A newline ends an empty line. -/
@[simp]
theorem lines_newline (cs : List Char) : lines ('\n' :: cs) = [] :: lines cs := by
  simp [lines, linesAhead_cons, LinesAhead.back]

/-- A carriage return before a newline changes nothing. -/
@[simp]
theorem lines_return_newline (cs : List Char) :
    lines ('\r' :: '\n' :: cs) = [] :: lines cs := by
  simp [lines, linesAhead_cons, LinesAhead.back]

/-- A newline stands ahead exactly when the text begins with one. -/
theorem atNewline_linesAhead (cs : List Char) :
    (linesAhead cs).atNewline = true ↔ ∃ rest, cs = '\n' :: rest := by
  cases cs with
  | nil => simp [linesAhead]
  | cons c rest =>
    rw [linesAhead_cons, LinesAhead.back]
    by_cases h : c = '\n'
    · simp [h]
    · rw [if_neg h]
      split <;> simp [h]

/-- Every other character belongs to the first line. -/
theorem lines_cons {c : Char} {cs : List Char} (hn : c ≠ '\n')
    (hr : c = '\r' → ∀ rest, cs ≠ '\n' :: rest) :
    lines (c :: cs) = consFirstLine c (lines cs) := by
  have h : ¬ (c = '\r' ∧ (linesAhead cs).atNewline = true) := by
    rintro ⟨hc, ha⟩
    obtain ⟨rest, hrest⟩ := (atNewline_linesAhead cs).mp ha
    exact hr hc rest hrest
  simp only [lines, linesAhead_cons, LinesAhead.back]
  rw [if_neg hn, if_neg h]

end PrintJob

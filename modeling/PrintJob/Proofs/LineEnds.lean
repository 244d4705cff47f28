/-
# Line ends

A line may be ended by a newline or by a carriage return and a newline, and the last
one need not be ended at all. `IsTextOf ls text` says that `text` is the lines `ls` with
any such ends. The lines of the text are `ls` again, save for an empty last line that is
not ended, which is not there to be seen (`hasLines_of_isTextOf`). An empty line declares
nothing, has no layer mark and is no move, so it is not missed: all passes over a text
find what they find in `ls`, and the report does not depend on the ends
(`Document.report_eq_of_isTextOf`).
-/
import PrintJob.Proofs.ReportLines
import PrintJob.Proofs.TextRows

namespace PrintJob

/-! ## Lines and texts -/

/-- What can be a line: it has no newline, and no carriage return at its end, which would
be taken for a part of the line end. -/
structure IsLine (line : List Char) : Prop where
  newline : '\n' ∉ line
  carriageReturn : line.getLast? ≠ some '\r'

instance (line : List Char) : Decidable (IsLine line) :=
  decidable_of_iff ('\n' ∉ line ∧ line.getLast? ≠ some '\r')
    ⟨fun h => ⟨h.1, h.2⟩, fun h => ⟨h.newline, h.carriageReturn⟩⟩

/-- The text consists of the lines, each with either line end; the last line may have
none. -/
inductive IsTextOf : List (List Char) → List Char → Prop
  | nil : IsTextOf [] []
  | unended (line : List Char) : IsTextOf [line] line
  | newline (line : List Char) {ls : List (List Char)} {text : List Char} :
      IsTextOf ls text → IsTextOf (line :: ls) (line ++ '\n' :: text)
  | returnNewline (line : List Char) {ls : List (List Char)} {text : List Char} :
      IsTextOf ls text → IsTextOf (line :: ls) (line ++ '\r' :: '\n' :: text)

/-! ## The lines of such a text -/

theorem dropReturn_append_return (row : List Char) : dropReturn (row ++ ['\r']) = row := by
  induction row with
  | nil => rfl
  | cons c cs ih =>
    have hne : ¬ (c = '\r' ∧ cs ++ ['\r'] = []) := by simp
    rw [List.cons_append, dropReturn, if_neg hne, ih]

theorem IsLine.dropReturn_eq {line : List Char} (h : IsLine line) : dropReturn line = line := by
  rcases eq_dropReturn_or line with hsame | hreturn
  · exact hsame.symm
  · exfalso
    apply h.carriageReturn
    rw [hreturn, List.getLast?_concat]

theorem IsLine.lines_newline {line : List Char} (h : IsLine line) (text : List Char) :
    lines (line ++ '\n' :: text) = line :: lines text := by
  rw [lines_row_newline h.newline, h.dropReturn_eq]

theorem IsLine.lines_returnNewline {line : List Char} (h : IsLine line) (text : List Char) :
    lines (line ++ '\r' :: '\n' :: text) = line :: lines text := by
  have hrow : '\n' ∉ line ++ ['\r'] := by
    intro hmem
    rcases List.mem_append.mp hmem with hline | hreturn
    · exact h.newline hline
    · exact absurd hreturn (by decide)
  -- the row ends with the carriage return, the line of the row does not
  have hlines := lines_row_newline hrow text
  rw [List.append_assoc, dropReturn_append_return] at hlines
  exact hlines

/-- The lines of the text are `ls`, or `ls` without an empty last line. -/
def HasLines (text : List Char) (ls : List (List Char)) : Prop :=
  ls = lines text ∨ ls = lines text ++ [[]]

theorem HasLines.cons {text longer line : List Char} {ls : List (List Char)}
    (h : HasLines text ls) (hlonger : lines longer = line :: lines text) :
    HasLines longer (line :: ls) := by
  unfold HasLines
  rw [hlonger]
  exact h.imp (congrArg (List.cons line)) (congrArg (List.cons line))

/-- **The lines of a text are those that it was made of**; only an empty last line that is
not ended is not found. -/
theorem hasLines_of_isTextOf {ls : List (List Char)} {text : List Char}
    (hls : ∀ line ∈ ls, IsLine line) (h : IsTextOf ls text) : HasLines text ls := by
  induction h with
  | nil => exact Or.inl rfl
  | unended line =>
    by_cases hempty : line = []
    -- nothing at all is written for it, so the text has no such line
    · rw [hempty]
      exact Or.inr rfl
    · exact Or.inl (lines_row (hls line List.mem_cons_self).newline hempty).symm
  | newline line _ ih =>
    obtain ⟨hline, hrest⟩ := List.forall_mem_cons.mp hls
    exact (ih hrest).cons (hline.lines_newline _)
  | returnNewline line _ ih =>
    obtain ⟨hline, hrest⟩ := List.forall_mem_cons.mp hls
    exact (ih hrest).cons (hline.lines_returnNewline _)

/-! ## Passes over the lines -/

variable {ls : List (List Char)} {text : List Char}

/-- The facts of a text are those of the lines that it was made of. -/
theorem Metadata.extract_of_hasLines (h : HasLines text ls) :
    extract text = ofLines ls := by
  rcases h with rfl | rfl
  · rfl
  · rw [ofLines, List.foldl_append]
    rfl

theorem countLayers_of_hasLines (h : HasLines text ls) :
    countLayers text = ls.foldr (fun line count => layerMarks line + count) 0 := by
  rcases h with rfl | rfl
  · rfl
  · rw [List.foldr_append]
    rfl

theorem movesOf_of_hasLines (h : HasLines text ls) :
    movesOf text = ls.filterMap Move.parse := by
  rcases h with rfl | rfl
  · rfl
  · rw [List.filterMap_append]
    exact (List.append_nil _).symm

/-- **The report depends on the logical lines only**, not on how each of them is ended. -/
theorem Document.report_eq_of_isTextOf (settings : EstimatorSettings) {a b : List Char}
    (hls : ∀ line ∈ ls, IsLine line) (ha : IsTextOf ls a) (hb : IsTextOf ls b) :
    report ⟨a, settings⟩ = report ⟨b, settings⟩ := by
  have hlinesA := hasLines_of_isTextOf hls ha
  have hlinesB := hasLines_of_isTextOf hls hb
  have hmetadata : Metadata.extract a = Metadata.extract b := by
    rw [Metadata.extract_of_hasLines hlinesA, Metadata.extract_of_hasLines hlinesB]
  have hlayers : countLayers a = countLayers b := by
    rw [countLayers_of_hasLines hlinesA, countLayers_of_hasLines hlinesB]
  have hmoves : movesOf a = movesOf b := by
    rw [movesOf_of_hasLines hlinesA, movesOf_of_hasLines hlinesB]
  exact report_congr hmetadata hlayers (simulate_congr settings hmoves)

/-- Four lines, the last of them empty: once with both line ends and the last line not
ended, once with the other of the two ends everywhere. -/
theorem Document.report_of_mixed_line_ends :
    let settings : EstimatorSettings := ⟨600, .skipMove⟩
    let ls := [";FLAVOR:Marlin ".toList, "G1 X5 F0".toList, ";LAYER".toList, []]
    let a := ";FLAVOR:Marlin \r\nG1 X5 F0\n;LAYER\r\n".toList
    let b := ";FLAVOR:Marlin \nG1 X5 F0\r\n;LAYER\n\r\n".toList
    (∀ line ∈ ls, IsLine line) ∧ IsTextOf ls a ∧ IsTextOf ls b ∧
      report ⟨a, settings⟩ = report ⟨b, settings⟩ := by
  intro settings ls a b
  have hls : ∀ line ∈ ls, IsLine line := by decide +kernel
  have hlast : IsTextOf [";LAYER".toList, []] (";LAYER".toList ++ '\r' :: '\n' :: []) :=
    .returnNewline _ (.unended [])
  have ha : IsTextOf ls a := .returnNewline _ (.newline _ hlast)
  have hb : IsTextOf ls b :=
    .newline _ (.returnNewline _ (.newline _ (.returnNewline [] .nil)))
  exact ⟨hls, ha, hb, report_eq_of_isTextOf settings hls ha hb⟩

end PrintJob

/-
# The paragraph about a file

In the text form of a report every line is made from texts of the document and of numbers
that have no newline of their own. For numbers this is so because of the characters they are
written with. The flavor is whatever the document says, but it says it on one line, and what
is cut from a line has no newline. So no document adds lines to its paragraph: there are six,
and one more about the moves if they were run (`paragraph_has_fixed_lines`).
-/
import PrintJob.Proofs.PrintTime
import PrintJob.Proofs.TextRows
import PrintJob.Rendering

namespace PrintJob

/-! ## Texts within a line -/

/-- The text can stand in a line without ending it. -/
def WithinLine (text : String) : Prop := '\n' ∉ text.toList

instance (text : String) : Decidable (WithinLine text) :=
  inferInstanceAs (Decidable (¬ _))

theorem withinLine_ofList {cs : List Char} (h : '\n' ∉ cs) : WithinLine (String.ofList cs) := by
  rw [WithinLine, String.toList_ofList]
  exact h

theorem WithinLine.append {a b : String} (ha : WithinLine a) (hb : WithinLine b) :
    WithinLine (a ++ b) := by
  rw [WithinLine, String.toList_append, List.mem_append, not_or]
  exact ⟨ha, hb⟩

theorem withinLine_orDash {value : Option String} (h : ∀ text ∈ value, WithinLine text) :
    WithinLine (orDash value) := by
  cases value with
  | none => decide
  | some text => exact h text rfl

/-- A line of output has one newline, and this is its last character. -/
theorem count_newline_textLine {parts : List String} (h : ∀ part ∈ parts, WithinLine part) :
    (textLine parts).toList.count '\n' = 1 := by
  have hparts : '\n' ∉ parts.flatMap String.toList := by
    intro hmem
    obtain ⟨part, hpart, hnewline⟩ := List.mem_flatMap.mp hmem
    exact h part hpart hnewline
  rw [textLine, String.toList_append, String.toList_join, List.count_append,
    List.count_eq_zero_of_not_mem hparts]
  rfl

theorem count_newline_pair {label value : String} (hlabel : WithinLine label)
    (hvalue : WithinLine value) : (textLine [label, value]).toList.count '\n' = 1 :=
  count_newline_textLine (List.forall_mem_cons.mpr ⟨hlabel, List.forall_mem_singleton.mpr hvalue⟩)

theorem getLast?_textLine (parts : List String) :
    (textLine parts).toList.getLast? = some '\n' := by
  rw [textLine, String.toList_append]
  exact List.getLast?_concat

/-! ## Numbers -/

/-- Digits are no newline. -/
theorem newline_not_mem_of_isDigit {cs : List Char} (h : ∀ c ∈ cs, c.isDigit = true) :
    '\n' ∉ cs := by
  intro hmem
  exact absurd (h '\n' hmem) (by decide)

theorem newline_not_mem_digits (n : Nat) : '\n' ∉ digits n :=
  newline_not_mem_of_isDigit fun _ => isDigit_of_mem_digits

theorem newline_ne_digitChar {d : Nat} (h : d < 10) : '\n' ≠ digitChar d := by
  intro heq
  have hdigit := isDigit_digitChar h
  rw [← heq] at hdigit
  exact absurd hdigit (by decide)

theorem newline_not_mem_twoDigits (n : Nat) : '\n' ∉ twoDigits n := by
  rw [twoDigits, List.mem_cons, List.mem_singleton, not_or]
  exact ⟨newline_ne_digitChar (by omega), newline_ne_digitChar (by omega)⟩

theorem newline_not_mem_signed {negative : Bool} {cs : List Char} (h : '\n' ∉ cs) :
    '\n' ∉ NumberStyle.signed negative cs := by
  cases negative with
  | false => exact h
  | true => simpa [NumberStyle.signed] using h

/-- Digits with a point and zeros around them. -/
theorem newline_not_mem_writePositional {ds : List Char} (h : '\n' ∉ ds) (point : Int) :
    '\n' ∉ NumberStyle.plain.writePositional ds point := by
  have hzeros : ∀ n, '\n' ∉ List.replicate n '0' := by
    intro n hmem
    exact absurd (List.eq_of_mem_replicate hmem) (by decide)
  have htake : '\n' ∉ ds.take point.toNat := mt List.mem_of_mem_take h
  have hdrop : '\n' ∉ ds.drop point.toNat := mt List.mem_of_mem_drop h
  unfold NumberStyle.writePositional
  split
  · simp [hzeros, h]
  · split
    · simp [NumberStyle.plain, hzeros, h]
    · simp [htake, hdrop]

theorem newline_not_mem_writeMagnitude (m : Magnitude) :
    '\n' ∉ NumberStyle.plain.writeMagnitude m := by
  unfold NumberStyle.writeMagnitude
  dsimp only
  split
  · decide
  · -- a plain number has no exponent
    have hpositional : ∀ point, NumberStyle.plain.positional point = true := fun _ => rfl
    rw [if_pos (hpositional _)]
    exact newline_not_mem_writePositional (newline_not_mem_digits _) _

theorem withinLine_wholeNumber (n : Nat) : WithinLine (wholeNumber n) :=
  withinLine_ofList (newline_not_mem_digits n)

theorem withinLine_plainNumber (x : Binary64) : WithinLine (plainNumber x) := by
  apply withinLine_ofList
  cases x with
  | finite negative m => exact newline_not_mem_signed (newline_not_mem_writeMagnitude m)
  | infinite negative => exact newline_not_mem_signed (by decide)
  | nan => decide

theorem newline_not_mem_oneDecimal (x : Binary64) : '\n' ∉ x.oneDecimal := by
  cases x with
  | finite negative m =>
    apply newline_not_mem_signed
    have hdigit := newline_ne_digitChar (Nat.mod_lt
      (roundHalfEven (10 * m.units) Magnitude.one) (by decide : 10 > 0))
    simp [newline_not_mem_digits, hdigit]
  | infinite negative => exact newline_not_mem_signed (by decide)
  | nan => decide

theorem newline_not_mem_format (duration : UInt64) : '\n' ∉ Duration.format duration := by
  unfold Duration.format
  dsimp only
  split
  · simp [newline_not_mem_digits, newline_not_mem_twoDigits]
  · split
    · simp [newline_not_mem_digits, newline_not_mem_twoDigits]
    · simp [newline_not_mem_digits]

/-! ## The flavor -/

theorem mem_of_mem_trim {c : Char} {cs : List Char} (h : c ∈ trim cs) : c ∈ cs := by
  have hback := List.mem_reverse.mp h
  have hmiddle := (List.dropWhile_suffix isBlank).subset hback
  exact (List.dropWhile_suffix isBlank).subset (List.mem_reverse.mp hmiddle)

theorem mem_of_mem_afterFirstChar {c d : Char} {cs rest : List Char}
    (h : afterFirstChar d cs = some rest) (hc : c ∈ rest) : c ∈ cs := by
  rw [afterFirstChar] at h
  cases hdrop : cs.dropWhile (· != d) with
  | nil =>
    rw [hdrop] at h
    cases h
  | cons e tail =>
    rw [hdrop] at h
    cases h
    have hsuffix : e :: rest <:+ cs := hdrop ▸ List.dropWhile_suffix _
    exact hsuffix.subset (List.mem_cons_of_mem e hc)

/-- A flavor is cut from its line. -/
theorem mem_of_flavor {line : List Char} {flavor : String}
    (h : Declaration.flavor line = some flavor) : ∀ c ∈ flavor.toList, c ∈ line := by
  rw [Declaration.flavor] at h
  obtain ⟨-, -, hbehind⟩ := Option.bind_eq_some_iff.mp h
  obtain ⟨rest, hrest, hvalue⟩ := Option.bind_eq_some_iff.mp hbehind
  dsimp only at hvalue
  split at hvalue
  · cases hvalue
  · cases hvalue
    intro c hc
    rw [String.toList_ofList] at hc
    exact mem_of_mem_afterFirstChar hrest (mem_of_mem_trim hc)

/-- A declared flavor has no newline, as it stands on one line of the text. -/
theorem withinLine_flavor {text : List Char} {flavor : String}
    (h : (Metadata.extract text).flavor = some flavor) : WithinLine flavor := by
  rw [Metadata.extract_view Metadata.flavor rfl (fun _ _ => rfl), findSomeRev?_eq_some_iff] at h
  obtain ⟨before, line, after, hlines, hline, -⟩ := h
  have hmem : line ∈ lines text := by
    rw [hlines]
    exact List.mem_append_right before List.mem_cons_self
  exact fun hnewline => newline_not_mem_of_mem_lines hmem (mem_of_flavor hline _ hnewline)

/-! ## Reports -/

/-- There is one line about the moves if they were run, and none otherwise. -/
theorem count_newline_movesText (simulation : Option Simulation) :
    (movesText simulation).toList.count '\n' = simulation.toList.length := by
  cases simulation with
  | none => rfl
  | some simulation =>
    rw [movesText, count_newline_textLine]
    · rfl
    · simp only [List.forall_mem_cons]
      exact ⟨by decide, withinLine_wholeNumber _, by decide,
        withinLine_ofList (newline_not_mem_oneDecimal _), by decide, List.forall_mem_nil _⟩

/-- A report has five lines and those about its moves. -/
theorem count_newline_reportText {report : Report}
    (h : ∀ flavor ∈ report.metadata.flavor, WithinLine flavor) :
    (reportText report).toList.count '\n' = 5 + report.simulation.toList.length := by
  have hfilament : ∀ text ∈ report.metadata.filamentUsed.map plainNumber, WithinLine text := by
    intro text htext
    obtain ⟨amount, -, rfl⟩ := Option.map_eq_some_iff.mp htext
    exact withinLine_plainNumber amount
  have hheight : ∀ text ∈ report.metadata.layerHeight.map (fun height =>
      plainNumber height ++ " mm"), WithinLine text := by
    intro text htext
    obtain ⟨height, -, rfl⟩ := Option.map_eq_some_iff.mp htext
    exact (withinLine_plainNumber height).append (by decide)
  have htime : (textLine ["  print time:     ",
      String.ofList (Duration.format report.estimatedSeconds), " (",
      wholeNumber report.estimatedSeconds.toNat, " s, ", report.timeSource.name,
      ")"]).toList.count '\n' = 1 := by
    have hsource : WithinLine report.timeSource.name := by
      cases report.timeSource <;> decide
    apply count_newline_textLine
    simp only [List.forall_mem_cons]
    exact ⟨by decide, withinLine_ofList (newline_not_mem_format _), by decide,
      withinLine_wholeNumber _, by decide, hsource, by decide, List.forall_mem_nil _⟩
  simp only [reportText, String.toList_append, List.count_append, count_newline_movesText]
  rw [count_newline_pair (by decide) (withinLine_orDash h), htime,
    count_newline_pair (by decide) (withinLine_orDash hfilament),
    count_newline_pair (by decide) (withinLine_orDash hheight),
    count_newline_pair (by decide) (withinLine_wholeNumber _)]

/-- The last line of a report is ended. -/
theorem getLast?_reportText (report : Report) :
    (reportText report).toList.getLast? = some '\n' := by
  rw [reportText, String.toList_append, List.getLast?_append]
  cases report.simulation with
  | none =>
    rw [String.toList_append, List.getLast?_append, getLast?_textLine]
    rfl
  | some simulation =>
    rw [movesText, getLast?_textLine]
    rfl

/-- **A document cannot add lines to its paragraph.** Whatever a document says, its paragraph
has six lines if the print time is declared and seven if it is simulated, and the last one is
ended. The paragraphs of many files are those of the files, one after another. -/
theorem paragraph_has_fixed_lines :
    (∀ (settings : EstimatorSettings) (text : List Char) (path : String), '\n' ∉ path.toList →
      let report := Document.report ⟨text, settings⟩
      let output := (render .text [⟨path, .ok report⟩]).toList
      (report.timeSource = .metadata → output.count '\n' = 6) ∧
        (report.timeSource = .simulation → output.count '\n' = 7) ∧
        output.getLast? = some '\n') ∧
      ∀ files others : List FileReport,
        render .text (files ++ others) = render .text files ++ render .text others := by
  refine ⟨?_, renderText_append⟩
  intro settings text path hpath report output
  have houtput : output = (textLine [path]).toList ++ (reportText report).toList := by
    show (String.join [textLine [path] ++ reportText report]).toList = _
    rw [String.toList_join, List.flatMap_singleton, String.toList_append]
  have hflavor : ∀ flavor ∈ report.metadata.flavor, WithinLine flavor := by
    intro flavor hmem
    have hmetadata : report.metadata = Metadata.extract text :=
      Document.metadata_report ⟨text, settings⟩
    rw [hmetadata] at hmem
    exact withinLine_flavor hmem
  have hcount : output.count '\n' = 6 + report.simulation.toList.length := by
    rw [houtput, List.count_append, count_newline_reportText hflavor, count_newline_textLine
      (List.forall_mem_singleton.mpr hpath), ← Nat.add_assoc]
  obtain ⟨hdeclared, hsimulated⟩ := Document.simulation_report ⟨text, settings⟩
  refine ⟨?_, ?_, ?_⟩
  · intro hsource
    rw [hcount, hdeclared hsource]
    rfl
  · intro hsource
    rw [hcount, hsimulated hsource]
    rfl
  · rw [houtput, List.getLast?_append, getLast?_reportText, Option.some_or]

/-- Two lines that look like the line about the layers: one is part of the flavor, behind a
carriage return, and the other is a line of the document. Neither is a line of the
paragraph. -/
theorem paragraph_of_forged_lines :
    let path := "part.gcode"
    let text := ";FLAVOR:Marlin\r  layers:         7\n  layers:         7\nG1 X5".toList
    let report := Document.report ⟨text, {}⟩
    let output := (render .text [⟨path, .ok report⟩]).toList
    '\n' ∉ path.toList ∧ report.timeSource = .simulation ∧
      report.metadata.flavor = some "Marlin\r  layers:         7" ∧
      output.count '\n' = 7 ∧ output.getLast? = some '\n' := by
  intro path text report output
  have hpath : '\n' ∉ path.toList := by decide
  have hsource : report.timeSource = .simulation := by decide +kernel
  have hflavor : report.metadata.flavor = some "Marlin\r  layers:         7" := by decide +kernel
  obtain ⟨-, hcount, hlast⟩ := paragraph_has_fixed_lines.1 {} text path hpath
  exact ⟨hpath, hsource, hflavor, hcount hsource, hlast⟩

end PrintJob

/-
# Counts behind a decimal point

The reader of durations does not know fractions. The count of a further part stands behind the
letter of a unit or behind blanks, so a decimal point can stand in front of the first count only.
There it is not noticed: what is in front of the first duration does not matter, and the digits
behind the point are read as a count of their own (`Duration.uses_fraction_tail_iff`).
-/
import PrintJob.Proofs.DurationSum

namespace PrintJob

namespace Duration

/-- What stands in front of the count of a part, from the start of the duration on. -/
def Written.HasInFront (written : Written) (part : Part) (front : List Char) : Prop :=
  (part = written.first ∧ front = []) ∨
    ∃ left next right, written.further = left ++ next :: right ∧ part = next.part ∧
      front = Written.text ⟨written.first, left⟩ ++ next.gap

/-- The first duration of the text has this part, and `front` stands in front of its count. -/
def UsesCount (text front : List Char) (part : Part) : Prop :=
  ∃ before written after inner, IsFirst text before written after ∧
    written.HasInFront part inner ∧ front = before ++ inner

/-- A text ends with a digit and a decimal point. -/
def EndsInFraction (front : List Char) : Prop :=
  ∃ whole digit, isDecimalDigit digit = true ∧ front = whole ++ [digit, '.']

/-! ## What stands in front of a count -/

theorem furtherText_append (left right : List Further) :
    furtherText (left ++ right) = furtherText left ++ furtherText right := by
  induction left with
  | nil => rfl
  | cons next left ih =>
    obtain ⟨gap, part⟩ := next
    rw [List.cons_append, furtherText, furtherText, ih, List.append_assoc, List.append_assoc,
      List.cons_append]

/-- A count that is used stands in the text directly behind what is in front of it. -/
theorem UsesCount.text_eq {text front : List Char} {part : Part} (h : UsesCount text front part) :
    ∃ rest, text = front ++ (part.count ++ part.unit.letter :: rest) := by
  obtain ⟨before, written, after, inner, hfirst, hfront, rfl⟩ := h
  rw [hfirst.text_eq]
  rcases hfront with ⟨rfl, rfl⟩ | ⟨left, next, right, hfurther, rfl, rfl⟩
  · exact ⟨furtherText written.further ++ after, by rw [List.append_nil, Written.text_append]⟩
  · refine ⟨furtherText right ++ after, ?_⟩
    obtain ⟨first, further⟩ := written
    obtain rfl : further = left ++ next :: right := hfurther
    simp [Written.text, furtherText_append, furtherText]

/-- The text of a duration ends with the letter of a unit. -/
theorem Written.exists_text_eq (written : Written) :
    ∃ inner, ∃ unit : TimeUnit, written.text = inner ++ [unit.letter] := by
  obtain ⟨first, further⟩ := written
  rcases List.eq_nil_or_concat further with rfl | ⟨left, next, rfl⟩
  · exact ⟨first.count, first.unit, rfl⟩
  · refine ⟨Written.text ⟨first, left⟩ ++ (next.gap ++ next.part.count), next.part.unit, ?_⟩
    simp [Written.text, furtherText_append, furtherText]

/-- A decimal point is neither a blank nor the letter of a unit, so it does not stand in front of
a further part. -/
theorem not_endsInFraction_of_further (before : List Char) (written : Written) {gap : List Char}
    (hgap : ∀ c ∈ gap, isBlank c = true) :
    ¬ EndsInFraction (before ++ (written.text ++ gap)) := by
  rintro ⟨whole, digit, -, hfront⟩
  have hlast : (before ++ (written.text ++ gap)).getLast? = some '.' := by
    rw [hfront]
    simp
  obtain ⟨inner, unit, htext⟩ := written.exists_text_eq
  rcases List.eq_nil_or_concat gap with rfl | ⟨blanks, blank, rfl⟩
  · have hletter : unit.letter = '.' := by
      rw [htext] at hlast
      simpa using hlast
    cases unit <;> exact absurd hletter (by decide)
  · have hpoint : blank = '.' := by simpa using hlast
    have hblank := hgap blank (by simp)
    rw [hpoint] at hblank
    exact absurd hblank (by decide)

/-- Behind a decimal point only the first count of a duration can stand. -/
theorem UsesCount.isFirst_of_endsInFraction {text front : List Char} {part : Part}
    (h : UsesCount text front part) (hfront : EndsInFraction front) :
    ∃ written after, IsFirst text front written after ∧ part = written.first := by
  obtain ⟨before, written, after, inner, hfirst, hinner, rfl⟩ := h
  rcases hinner with ⟨rfl, rfl⟩ | ⟨left, next, right, hfurther, -, rfl⟩
  · rw [List.append_nil]
    exact ⟨written, after, hfirst, rfl⟩
  · have hmem : next ∈ written.further := hfurther ▸ List.mem_append_right left List.mem_cons_self
    exact absurd hfront (not_endsInFraction_of_further before _ (hfirst.isValid.isBlank next hmem))

/-- Nothing goes on at the end of a text. -/
theorem not_continuesWith_nil {written : Written} : ¬ written.ContinuesWith [] := by
  rintro ⟨gap, count, unit, rest, -, -, -, hnil⟩
  simp at hnil

/-! ## What is read behind a decimal point -/

/-- What is in front of the first duration does not matter. -/
theorem parse_of_isFirst {text before after : List Char} {written : Written}
    (h : IsFirst text before written after) : parse text = parse (written.text ++ after) := by
  rw [parse, parse, firstParts_of_isFirst h,
    firstParts_of_isFirst (isFirst_nil h.isValid h.notBehind)]

/-- A duration is read exactly if all counts of the first one fit. -/
theorem exists_parse_iff {text before after : List Char} {written : Written}
    (h : IsFirst text before written after) :
    (∃ seconds, parse text = some seconds) ↔ ∀ part ∈ written.parts, Fits part.count := by
  constructor
  · rintro ⟨seconds, hseconds⟩ part hpart
    refine Classical.byContradiction fun hfits => ?_
    rw [parse_eq_none h ⟨part, hpart, hfits⟩] at hseconds
    cases hseconds
  · intro hfits
    exact ⟨_, parse_of_fits h hfits⟩

/-- **The tail of a fraction is used as a count exactly if the first duration stands behind one.**
Of the counts that are used only the first can have a decimal point behind a digit in front of
it; the digits behind the point are then its count, and what is read is what would be read
without all that is in front. -/
theorem uses_fraction_tail_iff (text : List Char) :
    (((∃ seconds, parse text = some seconds) ∧
        ∃ front part, UsesCount text front part ∧ EndsInFraction front) ↔
      ∃ before written after, IsFirst text before written after ∧ EndsInFraction before ∧
        ∀ part ∈ written.parts, Fits part.count) ∧
    (∀ before written after, IsFirst text before written after →
      parse text = parse (written.text ++ after)) ∧
    ∀ front part, UsesCount text front part →
      ∃ rest, text = front ++ (part.count ++ part.unit.letter :: rest) := by
  refine ⟨⟨?_, ?_⟩, fun _ _ _ h => parse_of_isFirst h, fun _ _ h => h.text_eq⟩
  · rintro ⟨hsome, front, part, huses, hfront⟩
    obtain ⟨written, after, hfirst, -⟩ := huses.isFirst_of_endsInFraction hfront
    exact ⟨front, written, after, hfirst, hfront, (exists_parse_iff hfirst).mp hsome⟩
  · rintro ⟨before, written, after, hfirst, hbefore, hfits⟩
    refine ⟨(exists_parse_iff hfirst).mpr hfits, before, written.first, ?_, hbefore⟩
    exact ⟨before, written, after, [], hfirst, Or.inl ⟨rfl, rfl⟩, (List.append_nil before).symm⟩

/-- Half an hour and thirty minutes read as five hours and thirty minutes. -/
theorem parse_half_hour_and_minutes :
    let text := "0.5h 30m".toList
    let written : Written := ⟨⟨.hour, ['5']⟩, [⟨[' '], ⟨.minute, "30".toList⟩⟩]⟩
    IsFirst text "0.".toList written [] ∧ parse text = parse "5h 30m".toList ∧
      parse text = some 19800 := by
  intro text written
  have hcount : ∀ part ∈ written.parts, IsCount part.count := List.forall_mem_cons.mpr
    ⟨⟨List.cons_ne_nil _ _, List.all_eq_true.mp (by decide +kernel)⟩, List.forall_mem_singleton.mpr
      ⟨List.cons_ne_nil _ _, List.all_eq_true.mp (by decide +kernel)⟩⟩
  have hvalid : written.IsValid :=
    ⟨by decide +kernel, hcount, List.forall_mem_singleton.mpr (List.forall_mem_singleton.mpr rfl)⟩
  have hafter : ¬ written.ContinuesWith [] := not_continuesWith_nil
  have hfirst : IsFirst text "0.".toList written [] :=
    ((isFirst_nil hvalid hafter).cons (by decide +kernel)).cons (by decide +kernel)
  have hparse := (uses_fraction_tail_iff text).2.1 _ _ _ hfirst
  exact ⟨hfirst, hparse, hparse.trans (by decide +kernel)⟩

/-- Of one and a half hours the digit behind the point is used as a count: five hours are read. -/
theorem parse_one_and_half_hours :
    let text := "1.5h".toList
    parse text = some 18000 ∧ UsesCount text "1.".toList ⟨.hour, ['5']⟩ ∧
      EndsInFraction "1.".toList := by
  intro text
  have hcount : IsCount ['5'] := ⟨List.cons_ne_nil _ _, List.forall_mem_singleton.mpr (by decide)⟩
  have hvalid : Written.IsValid ⟨⟨.hour, ['5']⟩, []⟩ := Written.isValid_single hcount
  have hfirst : IsFirst text "1.".toList ⟨⟨.hour, ['5']⟩, []⟩ [] :=
    ((isFirst_nil hvalid not_continuesWith_nil).cons (by decide +kernel)).cons (by decide +kernel)
  refine ⟨by decide +kernel, ⟨_, _, _, [], hfirst, Or.inl ⟨rfl, rfl⟩, rfl⟩, [], '1', by decide, rfl⟩

end Duration

end PrintJob

/-
# The parts of a duration

What the reader of durations does at a count with the letter of its unit. A count is
a run of decimal digits of any script (`Duration.IsCount`), and the letters are no
digits, so a count ends at its letter: the unit of that letter takes the part, a unit
before it in the order takes nothing (`readParts_part`, `readParts_cons_of_ne`). Where
no digit stands no part begins, so a text without digits is skipped
(`firstParts_append`).
-/
import PrintJob.Duration
import PrintJob.Proofs.CharacterRun

namespace PrintJob

/-! ## Characters -/

/-- No decimal digit is white space: the ranges of the two classes do not meet. -/
theorem not_isBlank_of_isDecimalDigit {c : Char} (h : isDecimalDigit c = true) :
    isBlank c = false := by
  have hapart : ∀ digit ∈ decimalDigitRanges, ∀ blank ∈ blankRanges,
      digit.2 < blank.1 ∨ blank.2 < digit.1 := by decide +kernel
  obtain ⟨digit, hdigit, hlow, hhigh⟩ := CharRanges.contains_iff.mp h
  rw [← Bool.not_eq_true]
  intro hblank
  obtain ⟨blank, hmem, hblankLow, hblankHigh⟩ := CharRanges.contains_iff.mp hblank
  rcases hapart digit hdigit blank hmem with hbefore | hbehind
  · omega
  · omega

namespace TimeUnit

theorem isDecimalDigit_letter (unit : TimeUnit) : isDecimalDigit unit.letter = false := by
  cases unit <;> decide

theorem letter_inj {a b : TimeUnit} : a.letter = b.letter ↔ a = b := by
  cases a <;> cases b <;> decide

end TimeUnit

namespace Duration

/-! ## Counts -/

/-- A run of decimal digits, of any script, that is not empty. -/
structure IsCount (cs : List Char) : Prop where
  ne_nil : cs ≠ []
  isDecimalDigit : ∀ c ∈ cs, isDecimalDigit c = true

/-- A number written in ASCII digits, zeros in front allowed. -/
structure IsNumeral (cs : List Char) (n : Nat) : Prop where
  ne_nil : cs ≠ []
  isDigit : ∀ c ∈ cs, c.isDigit = true
  ofDigits_eq : ofDigits cs = n

theorem isNumeral_digits (n : Nat) : IsNumeral (digits n) n where
  ne_nil := digits_ne_nil n
  isDigit _ hc := isDigit_of_mem_digits hc
  ofDigits_eq := ofDigits_digits n

theorem isNumeral_twoDigits {n : Nat} (h : n < 100) : IsNumeral (twoDigits n) n where
  ne_nil := List.cons_ne_nil _ _
  isDigit := by
    intro c hc
    simp only [twoDigits, List.mem_cons, List.not_mem_nil, or_false] at hc
    rcases hc with rfl | rfl
    · exact isDigit_digitChar (by omega)
    · exact isDigit_digitChar (by omega)
  ofDigits_eq := ofDigits_twoDigits h

theorem IsNumeral.isCount {cs : List Char} {n : Nat} (h : IsNumeral cs n) : IsCount cs where
  ne_nil := h.ne_nil
  isDecimalDigit c hc := isDecimalDigit_of_isDigit (h.isDigit c hc)

/-- A numeral below `2 ^ 64` is read as its number. -/
theorem readWhole_of_isNumeral {cs : List Char} {n : Nat} (h : IsNumeral cs n) (hlt : n < 2 ^ 64) :
    readWhole cs = some (UInt64.ofNatLT n hlt) := by
  obtain rfl : ofDigits cs = n := h.ofDigits_eq
  have hall : cs.all Char.isDigit = true := List.all_eq_true.mpr h.isDigit
  have hempty : cs.isEmpty = false := by
    rw [List.isEmpty_eq_false_iff]
    exact h.ne_nil
  rw [readWhole, hall, hempty, dif_pos hlt]
  rfl

@[simp]
theorem total_nil : total [] = some 0 := rfl

/-- A numeral below `2 ^ 64` adds the seconds that it counts. -/
theorem total_cons {count : List Char} {n rest : Nat} {parts : List Part}
    (h : IsNumeral count n) (hlt : n < 2 ^ 64) (unit : TimeUnit)
    (hparts : total parts = some rest) :
    total (⟨unit, count⟩ :: parts) = some (n * unit.inSeconds + rest) := by
  rw [total, readWhole_of_isNumeral h hlt, hparts]
  rfl

/-- What begins with a count does not begin with a blank. -/
theorem IsCount.stopsRun_isBlank {count : List Char} (h : IsCount count) (rest : List Char) :
    StopsRun isBlank (count ++ rest) := by
  obtain ⟨c, cs, rfl⟩ := List.exists_cons_of_ne_nil h.ne_nil
  exact stopsRun_cons.mpr (not_isBlank_of_isDecimalDigit (h.isDecimalDigit c List.mem_cons_self))

/-! ## One part -/

/-- Where no digit stands no part begins. -/
theorem readPart_of_stopsRun {cs : List Char} (h : StopsRun isDecimalDigit cs) (unit : TimeUnit) :
    readPart unit cs = none := by
  simp only [readPart, takeWhile_of_stopsRun h]

/-- A count belongs to the unit whose letter stands behind it. -/
theorem readPart_count {count : List Char} (h : IsCount count) (unit other : TimeUnit)
    (rest : List Char) :
    readPart unit (count ++ other.letter :: rest) =
      if other = unit then some (⟨unit, count⟩, rest) else none := by
  have hstop : StopsRun isDecimalDigit (other.letter :: rest) :=
    stopsRun_cons.mpr other.isDecimalDigit_letter
  obtain ⟨c, cs, rfl⟩ := List.exists_cons_of_ne_nil h.ne_nil
  simp only [readPart, takeWhile_run h.isDecimalDigit hstop, dropWhile_run h.isDecimalDigit hstop,
    TimeUnit.letter_inj]

/-! ## Parts of several units -/

theorem readParts_of_stopsRun {cs : List Char} (h : StopsRun isDecimalDigit cs)
    (units : List TimeUnit) : readParts units cs = [] := by
  induction units with
  | nil => rfl
  | cons unit units ih =>
    rw [readParts, readPart_of_stopsRun h]
    exact ih

/-- A unit that a part does not have is left out. -/
theorem readParts_cons_of_ne {count : List Char} (h : IsCount count) {unit : TimeUnit}
    (other : TimeUnit) (hne : other ≠ unit) (units : List TimeUnit) (rest : List Char) :
    readParts (unit :: units) (count ++ other.letter :: rest) =
      readParts units (count ++ other.letter :: rest) := by
  rw [readParts, readPart_count h, if_neg hne]

/-- A part of the first unit is read, and blanks behind it are passed over. -/
theorem readParts_cons_self {count : List Char} (h : IsCount count) (unit : TimeUnit)
    (units : List TimeUnit) (rest : List Char) :
    readParts (unit :: units) (count ++ unit.letter :: rest) =
      ⟨unit, count⟩ :: readParts units (trimStart rest) := by
  rw [readParts, readPart_count h, if_pos rfl]

/-- A part is read together with the blanks behind it. -/
theorem readParts_part {count gap rest : List Char} (h : IsCount count) (unit : TimeUnit)
    (units : List TimeUnit) (hgap : ∀ c ∈ gap, isBlank c = true) (hrest : StopsRun isBlank rest) :
    readParts (unit :: units) (count ++ unit.letter :: (gap ++ rest)) =
      ⟨unit, count⟩ :: readParts units rest := by
  rw [readParts_cons_self h, trimStart, dropWhile_run hgap hrest]

/-! ## The first duration -/

/-- A text without decimal digits in front is skipped. -/
theorem firstParts_append {before : List Char} (h : ∀ c ∈ before, isDecimalDigit c = false)
    (cs : List Char) : firstParts (before ++ cs) = firstParts cs := by
  induction before with
  | nil => rfl
  | cons c before ih =>
    have hstop : StopsRun isDecimalDigit (c :: (before ++ cs)) :=
      stopsRun_cons.mpr (h c List.mem_cons_self)
    rw [List.cons_append, firstParts, readParts_of_stopsRun hstop]
    apply ih
    intro d hd
    exact h d (List.mem_cons_of_mem c hd)

/-- Parts at the very start are the first ones. -/
theorem firstParts_of_readParts {cs : List Char} {part : Part} {parts : List Part}
    (h : readParts TimeUnit.all cs = part :: parts) : firstParts cs = some (part :: parts) := by
  cases cs with
  | nil => cases h.symm.trans (readParts_of_stopsRun stopsRun_nil TimeUnit.all)
  | cons c cs => rw [firstParts, h]

end Duration

end PrintJob

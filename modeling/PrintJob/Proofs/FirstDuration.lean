/-
# The first duration of a text

A duration as written is a part and further parts of smaller and smaller units, with blanks
between them or none (`Duration.Written`). The reader finds the first one of a text: it begins at
the first place where a count and the letter of a unit stand, and it goes on as long as smaller
units follow (`Duration.firstParts_eq_some_iff`). A text without such a place has none
(`Duration.firstParts_eq_none_iff`).
-/
import PrintJob.Proofs.DurationParts

namespace PrintJob

/-! ## The order of units -/

/-- Behind a unit stand all the units that are shorter. -/
theorem TimeUnit.mem_iff_of_suffix {unit : TimeUnit} {units : List TimeUnit}
    (h : unit :: units <:+ TimeUnit.all) (other : TimeUnit) :
    other ∈ units ↔ other.inSeconds < unit.inSeconds := by
  simp only [TimeUnit.all, List.suffix_cons_iff, List.suffix_nil, List.cons.injEq, reduceCtorEq,
    or_false] at h
  rcases h with ⟨rfl, rfl⟩ | ⟨rfl, rfl⟩ | ⟨rfl, rfl⟩ | ⟨rfl, rfl⟩ <;> cases other <;> decide

namespace Duration

/-! ## Durations as written -/

/-- A further part of a duration, and what stands between it and the part in front. -/
structure Further where
  gap : List Char
  part : Part

/-- The text of further parts. -/
def furtherText : List Further → List Char
  | [] => []
  | ⟨gap, part⟩ :: rest => gap ++ (part.count ++ part.unit.letter :: furtherText rest)

/-- A duration as it is written: a part, and further parts. -/
structure Written where
  first : Part
  further : List Further

namespace Written

/-- The text of a duration. -/
def text (written : Written) : List Char :=
  written.first.count ++ written.first.unit.letter :: furtherText written.further

/-- The parts of a duration in order. -/
def parts (written : Written) : List Part := written.first :: written.further.map Further.part

/-- The units get shorter from part to part, each part has a count, and only blanks stand between
the parts. -/
structure IsValid (written : Written) : Prop where
  falling : written.parts.Pairwise fun a b => b.unit.inSeconds < a.unit.inSeconds
  isCount : ∀ part ∈ written.parts, IsCount part.count
  isBlank : ∀ further ∈ written.further, ∀ c ∈ further.gap, isBlank c = true

/-- Behind a duration stand, after blanks or none, a count and the letter of a unit that is
shorter than all of the duration. -/
def ContinuesWith (written : Written) (after : List Char) : Prop :=
  ∃ gap count, ∃ unit : TimeUnit, ∃ rest, (∀ c ∈ gap, PrintJob.isBlank c = true) ∧
    IsCount count ∧ (∀ part ∈ written.parts, unit.inSeconds < part.unit.inSeconds) ∧
    after = gap ++ (count ++ unit.letter :: rest)

end Written

/-- A text begins with a count and the letter of one of these units. -/
def BeginsPart (units : List TimeUnit) (cs : List Char) : Prop :=
  ∃ count unit rest, unit ∈ units ∧ IsCount count ∧ cs = count ++ unit.letter :: rest

/-- The first duration of a text: it stands between `before` and `after`, no part begins further
in front, and it does not go on behind its end. -/
structure IsFirst (text before : List Char) (written : Written) (after : List Char) : Prop where
  text_eq : text = before ++ (written.text ++ after)
  isValid : written.IsValid
  notBefore : ∀ front back, before = front ++ back → back ≠ [] →
    ¬ BeginsPart TimeUnit.all (back ++ (written.text ++ after))
  notBehind : ¬ written.ContinuesWith after

/-! ## Where a part is read -/

/-- A part is read where its count and the letter of its unit stand. -/
theorem readPart_eq_some_iff {unit : TimeUnit} {cs rest : List Char} {part : Part} :
    readPart unit cs = some (part, rest) ↔
      part.unit = unit ∧ IsCount part.count ∧ cs = part.count ++ unit.letter :: rest := by
  constructor
  · intro h
    have hdigit : ∀ c ∈ cs.takeWhile isDecimalDigit, isDecimalDigit c = true :=
      fun c hc => of_mem_takeWhile hc
    have hsplit : cs.takeWhile isDecimalDigit ++ cs.dropWhile isDecimalDigit = cs :=
      List.takeWhile_append_dropWhile
    simp only [readPart] at h
    cases hcount : cs.takeWhile isDecimalDigit with
    | nil =>
      rw [hcount] at h
      cases h
    | cons c count =>
      cases htail : cs.dropWhile isDecimalDigit with
      | nil =>
        rw [hcount, htail] at h
        cases h
      | cons d tail =>
        rw [hcount, htail] at h hsplit
        rw [hcount] at hdigit
        by_cases hletter : d = unit.letter
        · obtain ⟨rfl, rfl⟩ := Prod.mk.inj (Option.some.inj ((if_pos hletter).symm.trans h))
          exact ⟨rfl, ⟨List.cons_ne_nil c count, hdigit⟩, hletter ▸ hsplit.symm⟩
        · cases (if_neg hletter).symm.trans h
  · rintro ⟨rfl, hcount, rfl⟩
    rw [readPart_count hcount, if_pos rfl]

/-- Nothing is read where no part of the units begins. -/
theorem readParts_eq_nil_iff {units : List TimeUnit} {cs : List Char} :
    readParts units cs = [] ↔ ¬ BeginsPart units cs := by
  induction units with
  | nil =>
    refine iff_of_true rfl ?_
    rintro ⟨count, unit, rest, hunit, -⟩
    cases hunit
  | cons unit units ih =>
    rw [readParts]
    cases hpart : readPart unit cs with
    | some found =>
      obtain ⟨hunit, hcount, hcs⟩ := readPart_eq_some_iff.mp hpart
      refine iff_of_false (List.cons_ne_nil _ _) (not_not_intro ?_)
      exact ⟨_, unit, _, List.mem_cons_self, hcount, hcs⟩
    | none =>
      refine ih.trans (not_congr ⟨?_, ?_⟩)
      · rintro ⟨count, other, rest, hmem, hcount, hcs⟩
        exact ⟨count, other, rest, List.mem_cons_of_mem unit hmem, hcount, hcs⟩
      · rintro ⟨count, other, rest, hmem, hcount, rfl⟩
        rcases List.mem_cons.mp hmem with rfl | hmem
        · have hread : readPart other (count ++ other.letter :: rest) = some (⟨other, count⟩, rest) :=
            readPart_eq_some_iff.mpr ⟨rfl, hcount, rfl⟩
          cases hpart.symm.trans hread
        · exact ⟨count, other, rest, hmem, hcount, rfl⟩

/-- A text begins with a part only if it begins with a digit. -/
theorem BeginsPart.isDecimalDigit {units : List TimeUnit} {c : Char} {cs : List Char}
    (h : BeginsPart units (c :: cs)) : PrintJob.isDecimalDigit c = true := by
  obtain ⟨count, unit, rest, -, hcount, hcs⟩ := h
  obtain ⟨d, ds, rfl⟩ := List.exists_cons_of_ne_nil hcount.ne_nil
  obtain ⟨rfl, -⟩ := List.cons.inj hcs
  exact hcount.isDecimalDigit _ List.mem_cons_self

/-- Blanks in front of a part are passed over. -/
theorem beginsPart_trimStart_iff {units : List TimeUnit} {cs : List Char} :
    BeginsPart units (trimStart cs) ↔ ∃ gap count unit rest, (∀ c ∈ gap, isBlank c = true) ∧
      IsCount count ∧ unit ∈ units ∧ cs = gap ++ (count ++ unit.letter :: rest) := by
  constructor
  · rintro ⟨count, unit, rest, hunit, hcount, hcs⟩
    refine ⟨cs.takeWhile isBlank, count, unit, rest, fun c hc => of_mem_takeWhile hc, hcount, hunit,
      ?_⟩
    rw [← hcs, trimStart, List.takeWhile_append_dropWhile]
  · rintro ⟨gap, count, unit, rest, hgap, hcount, hunit, rfl⟩
    rw [trimStart, dropWhile_run hgap (hcount.stopsRun_isBlank _)]
    exact ⟨count, unit, rest, hunit, hcount, rfl⟩

/-! ## The parts of a duration are read -/

namespace Written

variable {written : Written} {after : List Char}

theorem text_append (written : Written) (after : List Char) :
    written.text ++ after = written.first.count ++
      written.first.unit.letter :: (furtherText written.further ++ after) := by
  rw [text, List.append_assoc, List.cons_append]

/-- Without its first part a duration is a duration, if there are further parts. -/
theorem IsValid.tail {first : Part} {next : Further} {further : List Further}
    (h : IsValid ⟨first, next :: further⟩) : IsValid ⟨next.part, further⟩ where
  falling := (List.pairwise_cons.mp h.falling).2
  isCount part hpart := h.isCount part (List.mem_cons_of_mem first hpart)
  isBlank piece hpiece := h.isBlank piece (List.mem_cons_of_mem next hpiece)

/-- What goes on behind a duration goes on behind its further parts too, and the other way round,
since the first part has the longest unit. -/
theorem continuesWith_cons_iff {first : Part} {next : Further} {further : List Further}
    (h : IsValid ⟨first, next :: further⟩) :
    ContinuesWith ⟨first, next :: further⟩ after ↔ ContinuesWith ⟨next.part, further⟩ after := by
  have hnext : next.part.unit.inSeconds < first.unit.inSeconds :=
    (List.pairwise_cons.mp h.falling).1 next.part List.mem_cons_self
  constructor
  · rintro ⟨gap, count, unit, rest, hgap, hcount, hunit, rfl⟩
    exact ⟨gap, count, unit, rest, hgap, hcount,
      fun part hpart => hunit part (List.mem_cons_of_mem first hpart), rfl⟩
  · rintro ⟨gap, count, unit, rest, hgap, hcount, hunit, rfl⟩
    refine ⟨gap, count, unit, rest, hgap, hcount, ?_, rfl⟩
    intro part hpart
    rcases List.mem_cons.mp hpart with rfl | hpart
    · exact Nat.lt_trans (hunit next.part List.mem_cons_self) hnext
    · exact hunit part hpart

/-- Behind a single part goes on what begins, after blanks, with a part of the units behind its
own. -/
theorem continuesWith_single_iff {first : Part} {units : List TimeUnit}
    (h : first.unit :: units <:+ TimeUnit.all) :
    ContinuesWith ⟨first, []⟩ after ↔ BeginsPart units (trimStart after) := by
  rw [beginsPart_trimStart_iff]
  constructor
  · rintro ⟨gap, count, unit, rest, hgap, hcount, hunit, hafter⟩
    exact ⟨gap, count, unit, rest, hgap, hcount,
      (TimeUnit.mem_iff_of_suffix h unit).mpr (hunit first List.mem_cons_self), hafter⟩
  · rintro ⟨gap, count, unit, rest, hgap, hcount, hunit, hafter⟩
    refine ⟨gap, count, unit, rest, hgap, hcount, ?_, hafter⟩
    intro part hpart
    obtain rfl := List.mem_singleton.mp hpart
    exact (TimeUnit.mem_iff_of_suffix h unit).mp hunit

/-- **The parts of a duration are read where it stands**, if it does not go on behind its end. -/
theorem readParts_text {units : List TimeUnit} (hunits : units <:+ TimeUnit.all)
    (hfirst : written.first.unit ∈ units) (h : written.IsValid)
    (hafter : ¬ written.ContinuesWith after) :
    readParts units (written.text ++ after) = written.parts := by
  -- along the units: each is left out in front of the first part, or is that of the first part
  induction units generalizing written with
  | nil => cases hfirst
  | cons unit units ih =>
    obtain ⟨first, further⟩ := written
    have hcount : IsCount first.count := h.isCount first List.mem_cons_self
    have htail : units <:+ TimeUnit.all := (List.suffix_cons unit units).trans hunits
    rw [text_append]
    by_cases hunit : first.unit = unit
    · subst hunit
      rw [readParts_cons_self hcount]
      cases further with
      | nil =>
        rw [continuesWith_single_iff hunits] at hafter
        rw [furtherText, List.nil_append, readParts_eq_nil_iff.mpr hafter]
        rfl
      | cons next further =>
        have hnext : IsCount next.part.count :=
          h.isCount next.part (List.mem_cons_of_mem first List.mem_cons_self)
        have hmem : next.part.unit ∈ units := (TimeUnit.mem_iff_of_suffix hunits _).mpr
          ((List.pairwise_cons.mp h.falling).1 next.part List.mem_cons_self)
        rw [continuesWith_cons_iff h] at hafter
        have hread := @ih ⟨next.part, further⟩ htail hmem h.tail hafter
        have hgap : ∀ c ∈ next.gap, PrintJob.isBlank c = true :=
          h.isBlank next List.mem_cons_self
        rw [furtherText, List.append_assoc, trimStart, List.append_assoc, List.cons_append,
          dropWhile_run hgap (hnext.stopsRun_isBlank _)]
        rw [text_append] at hread
        rw [hread]
        rfl
    · have hmem : first.unit ∈ units := (List.mem_cons.mp hfirst).resolve_left hunit
      rw [readParts_cons_of_ne hcount first.unit hunit]
      have hread := @ih ⟨first, further⟩ htail hmem h hafter
      rw [text_append] at hread
      exact hread

/-- A part in front of a duration of shorter units makes a longer duration. -/
theorem IsValid.cons (h : written.IsValid) {part : Part} (hcount : IsCount part.count)
    (hunit : written.first.unit.inSeconds < part.unit.inSeconds) {gap : List Char}
    (hgap : ∀ c ∈ gap, PrintJob.isBlank c = true) :
    IsValid ⟨part, ⟨gap, written.first⟩ :: written.further⟩ where
  falling := by
    refine List.pairwise_cons.mpr ⟨?_, h.falling⟩
    intro other hother
    rcases List.mem_cons.mp hother with rfl | hmem
    · exact hunit
    · exact Nat.lt_trans ((List.pairwise_cons.mp h.falling).1 other hmem) hunit
  isCount := List.forall_mem_cons.mpr ⟨hcount, h.isCount⟩
  isBlank := List.forall_mem_cons.mpr ⟨hgap, h.isBlank⟩

theorem isValid_single {part : Part} (hcount : IsCount part.count) : IsValid ⟨part, []⟩ where
  falling := List.pairwise_singleton _ _
  isCount := List.forall_mem_singleton.mpr hcount
  isBlank := List.forall_mem_nil _

/-- **What is read is a duration that is written at the start of the text.** -/
theorem exists_of_readParts {units : List TimeUnit} (hunits : units <:+ TimeUnit.all)
    {cs : List Char} {part : Part} {parts : List Part}
    (h : readParts units cs = part :: parts) :
    ∃ (written : Written) (after : List Char), cs = written.text ++ after ∧ written.IsValid ∧
      ¬ written.ContinuesWith after ∧ written.parts = part :: parts ∧
      written.first.unit ∈ units := by
  induction units generalizing cs part parts with
  | nil => cases h
  | cons unit units ih =>
    have htail : units <:+ TimeUnit.all := (List.suffix_cons unit units).trans hunits
    rw [readParts] at h
    cases hread : readPart unit cs with
    | none =>
      rw [hread] at h
      obtain ⟨written, after, hcs, hvalid, hafter, hparts, hmem⟩ := ih htail h
      exact ⟨written, after, hcs, hvalid, hafter, hparts, List.mem_cons_of_mem unit hmem⟩
    | some found =>
      obtain ⟨first, rest⟩ := found
      rw [hread] at h
      obtain ⟨rfl, hparts⟩ := List.cons.inj h
      obtain ⟨rfl, hcount, rfl⟩ := readPart_eq_some_iff.mp hread
      cases parts with
      | nil =>
        refine ⟨⟨first, []⟩, rest, (text_append ⟨first, []⟩ rest).symm, isValid_single hcount, ?_,
          rfl, List.mem_cons_self⟩
        rw [continuesWith_single_iff hunits]
        exact readParts_eq_nil_iff.mp hparts
      | cons next parts =>
        obtain ⟨written, after, htrim, hvalid, hafter, hwritten, hmem⟩ := ih htail hparts
        have hgap : ∀ c ∈ rest.takeWhile PrintJob.isBlank, PrintJob.isBlank c = true :=
          fun c hc => of_mem_takeWhile hc
        have hlong := hvalid.cons hcount ((TimeUnit.mem_iff_of_suffix hunits _).mp hmem) hgap
        refine ⟨_, after, ?_, hlong, mt (continuesWith_cons_iff hlong).mp hafter, ?_,
          List.mem_cons_self⟩
        · rw [text_append, furtherText, List.append_assoc, ← text, ← htrim, trimStart,
            List.takeWhile_append_dropWhile]
        · rw [← hwritten]
          rfl

end Written

/-! ## The first place -/

/-- The first parts of a text are those that begin it, if any does. -/
theorem firstParts_cons (c : Char) (cs : List Char) :
    firstParts (c :: cs) = if readParts TimeUnit.all (c :: cs) = [] then firstParts cs
      else some (readParts TimeUnit.all (c :: cs)) := by
  rw [firstParts]
  cases readParts TimeUnit.all (c :: cs) with
  | nil => rw [if_pos rfl]
  | cons part parts => rw [if_neg (List.cons_ne_nil part parts)]

/-- **The first duration of a text is read.** -/
theorem firstParts_of_isFirst {text before after : List Char} {written : Written}
    (h : IsFirst text before written after) : firstParts text = some written.parts := by
  obtain ⟨rfl, hvalid, hbefore, hbehind⟩ := h
  -- no part begins in `before`, so the reader passes over its characters one by one
  induction before with
  | nil =>
    have hall : written.first.unit ∈ TimeUnit.all := by
      cases written.first.unit <;> decide
    exact firstParts_of_readParts (Written.readParts_text List.suffix_rfl hall hvalid hbehind)
  | cons c before ih =>
    have hnone : readParts TimeUnit.all (c :: (before ++ (written.text ++ after))) = [] :=
      readParts_eq_nil_iff.mpr (hbefore [] (c :: before) rfl (List.cons_ne_nil c before))
    rw [List.cons_append, firstParts_cons, if_pos hnone]
    apply ih
    intro front back hsplit hne
    exact hbefore (c :: front) back (congrArg (List.cons c) hsplit) hne

/-- A duration at the start of a text is the first one. -/
theorem isFirst_nil {written : Written} {after : List Char} (hvalid : written.IsValid)
    (hafter : ¬ written.ContinuesWith after) : IsFirst (written.text ++ after) [] written after where
  text_eq := rfl
  isValid := hvalid
  notBefore _ _ hsplit hne := absurd (List.append_eq_nil_iff.mp hsplit.symm).2 hne
  notBehind := hafter

/-- A first duration stays the first one behind one more character at which none begins. -/
theorem IsFirst.cons {text before after : List Char} {written : Written}
    (h : IsFirst text before written after) {c : Char}
    (hnone : readParts TimeUnit.all (c :: text) = []) :
    IsFirst (c :: text) (c :: before) written after where
  text_eq := congrArg (List.cons c) h.text_eq
  isValid := h.isValid
  notBefore := by
    intro front back hsplit hne
    cases front with
    | nil =>
      obtain rfl : c :: before = back := hsplit
      rw [List.cons_append, ← h.text_eq]
      exact readParts_eq_nil_iff.mp hnone
    | cons d front => exact h.notBefore front back (List.cons.inj hsplit).2 hne
  notBehind := h.notBehind

/-- **What is read is the first duration of the text.** -/
theorem exists_isFirst {text : List Char} {parts : List Part} (h : firstParts text = some parts) :
    ∃ before written after, IsFirst text before written after ∧ written.parts = parts := by
  induction text with
  | nil => cases h
  | cons c cs ih =>
    rw [firstParts_cons] at h
    by_cases hnone : readParts TimeUnit.all (c :: cs) = []
    · rw [if_pos hnone] at h
      obtain ⟨before, written, after, hfirst, hparts⟩ := ih h
      exact ⟨c :: before, written, after, hfirst.cons hnone, hparts⟩
    · obtain ⟨part, rest, hparts⟩ := List.exists_cons_of_ne_nil hnone
      obtain ⟨written, after, htext, hvalid, hafter, hwritten, -⟩ :=
        Written.exists_of_readParts List.suffix_rfl hparts
      rw [if_neg hnone, hparts] at h
      exact ⟨[], written, after, htext ▸ isFirst_nil hvalid hafter,
        hwritten.trans (Option.some.inj h)⟩

theorem firstParts_eq_some_iff {text : List Char} {parts : List Part} :
    firstParts text = some parts ↔
      ∃ before written after, IsFirst text before written after ∧ written.parts = parts := by
  constructor
  · exact exists_isFirst
  · rintro ⟨before, written, after, hfirst, rfl⟩
    exact firstParts_of_isFirst hfirst

/-! ## Texts without a duration -/

/-- Somewhere in the text a count stands directly in front of the letter of a unit. -/
def HasPart (text : List Char) : Prop :=
  ∃ front count, ∃ unit : TimeUnit, ∃ rest, IsCount count ∧
    text = front ++ (count ++ unit.letter :: rest)

theorem hasPart_cons_iff {c : Char} {cs : List Char} :
    HasPart (c :: cs) ↔ BeginsPart TimeUnit.all (c :: cs) ∨ HasPart cs := by
  constructor
  · rintro ⟨front, count, unit, rest, hcount, htext⟩
    cases front with
    | nil => exact Or.inl ⟨count, unit, rest, by cases unit <;> decide, hcount, htext⟩
    | cons d front => exact Or.inr ⟨front, count, unit, rest, hcount, (List.cons.inj htext).2⟩
  · rintro (⟨count, unit, rest, -, hcount, htext⟩ | ⟨front, count, unit, rest, hcount, rfl⟩)
    · exact ⟨[], count, unit, rest, hcount, htext⟩
    · exact ⟨c :: front, count, unit, rest, hcount, rfl⟩

/-- **Nothing is read of a text exactly if no count in it has a unit.** -/
theorem firstParts_eq_none_iff {text : List Char} :
    firstParts text = none ↔ ¬ HasPart text := by
  induction text with
  | nil =>
    refine iff_of_true rfl ?_
    rintro ⟨front, count, unit, rest, -, htext⟩
    simp at htext
  | cons c cs ih =>
    rw [firstParts_cons, hasPart_cons_iff, not_or, ← readParts_eq_nil_iff, ← ih]
    by_cases hnone : readParts TimeUnit.all (c :: cs) = []
    · rw [if_pos hnone]
      exact (and_iff_right hnone).symm
    · rw [if_neg hnone]
      exact iff_of_false (Option.some_ne_none _) fun h => hnone h.1

end Duration

end PrintJob

/-
# Declared numbers

The amount of filament and the layer height are the first numbers behind their markers, on
the last line that has one there (`LastNumber`). Such a number may have any number of
digits. It is kept even if it is too large for a double, and then the fact is infinite and
every report has `null` in its place (`Metadata.declared_numbers`).
-/
import PrintJob.Proofs.FirstNumber
import PrintJob.Proofs.PrintTime
import PrintJob.ReportData

namespace PrintJob

/-! ## The last number of a text -/

/-- The line has the marker, and a number behind it. -/
def DeclaresNumber (marker line : List Char) (n : PlainNumber) : Prop :=
  ∃ rest, afterCaseless marker line = some rest ∧ IsFirstNumber rest n

/-- The number stands on the last line of the text that has one behind the marker. -/
def LastNumber (marker text : List Char) (n : PlainNumber) : Prop :=
  ∃ before line after, lines text = before ++ line :: after ∧ DeclaresNumber marker line n ∧
    ∀ later ∈ after, ∀ m, ¬ DeclaresNumber marker later m

theorem bind_firstNumber_eq_some_iff {marker line : List Char} {x : Binary64} :
    (afterCaseless marker line).bind firstNumber = some x ↔
      ∃ n, DeclaresNumber marker line n ∧ x = n.nearest false := by
  rw [Option.bind_eq_some_iff]
  constructor
  · rintro ⟨rest, hrest, hx⟩
    obtain ⟨n, hn, rfl⟩ := firstNumber_eq_some_iff.mp hx
    exact ⟨n, ⟨rest, hrest, hn⟩, rfl⟩
  · rintro ⟨n, ⟨rest, hrest, hn⟩, rfl⟩
    exact ⟨rest, hrest, firstNumber_eq_some_iff.mpr ⟨n, hn, rfl⟩⟩

theorem bind_firstNumber_eq_none_iff {marker line : List Char} :
    (afterCaseless marker line).bind firstNumber = none ↔ ∀ n, ¬ DeclaresNumber marker line n := by
  rw [Option.eq_none_iff_forall_ne_some]
  constructor
  · intro h n hn
    exact h _ (bind_firstNumber_eq_some_iff.mpr ⟨n, hn, rfl⟩)
  · intro h x hx
    obtain ⟨n, hn, -⟩ := bind_firstNumber_eq_some_iff.mp hx
    exact h n hn

/-- The last line that gives a number is the last one that declares one. -/
theorem findSomeRev?_firstNumber_eq_some_iff {marker text : List Char} {x : Binary64} :
    (lines text).findSomeRev? (fun line => (afterCaseless marker line).bind firstNumber) = some x ↔
      ∃ n, LastNumber marker text n ∧ x = n.nearest false := by
  rw [findSomeRev?_eq_some_iff]
  constructor
  · rintro ⟨before, line, after, hlines, hline, hafter⟩
    obtain ⟨n, hn, rfl⟩ := bind_firstNumber_eq_some_iff.mp hline
    exact ⟨n, ⟨before, line, after, hlines, hn, fun later hlater =>
      bind_firstNumber_eq_none_iff.mp (hafter later hlater)⟩, rfl⟩
  · rintro ⟨n, ⟨before, line, after, hlines, hn, hafter⟩, rfl⟩
    exact ⟨before, line, after, hlines, bind_firstNumber_eq_some_iff.mpr ⟨n, hn, rfl⟩,
      fun later hlater => bind_firstNumber_eq_none_iff.mpr (hafter later hlater)⟩

/-! ## Facts that are not finite -/

/-- The last number behind the marker is too large for a finite double. -/
def LastOverflows (marker text : List Char) : Prop := ∃ n, LastNumber marker text n ∧ n.Overflows

/-- The fact is the double nearest to the last number behind the marker. -/
def IsLastDeclared (fact : Option Binary64) (marker text : List Char) : Prop :=
  ∀ x, fact = some x ↔ ∃ n, LastNumber marker text n ∧ x = n.nearest false

/-- A fact that each line declares by the first number behind the marker is the last one. -/
theorem Metadata.isLastDeclared_extract {marker : List Char} (view : Metadata → Option Binary64)
    (hempty : view empty = none)
    (hupdate : ∀ old new, view (old.update new) = (view new).or (view old))
    (hline : ∀ line, view (ofLine line) = (afterCaseless marker line).bind firstNumber)
    (text : List Char) : IsLastDeclared (view (extract text)) marker text := by
  intro x
  rw [extract_view view hempty hupdate, funext hline]
  exact findSomeRev?_firstNumber_eq_some_iff

namespace IsLastDeclared

variable {fact : Option Binary64} {marker text : List Char}

theorem exists_not_finite_iff (h : IsLastDeclared fact marker text) :
    (∃ x, fact = some x ∧ ¬ x.isFinite = true) ↔ LastOverflows marker text := by
  constructor
  · rintro ⟨x, hx, hfinite⟩
    obtain ⟨n, hn, rfl⟩ := (h x).mp hx
    rw [n.isFinite_nearest_iff, Decidable.not_not] at hfinite
    exact ⟨n, hn, hfinite⟩
  · rintro ⟨n, hn, hoverflows⟩
    refine ⟨n.nearest false, (h _).mpr ⟨n, hn, rfl⟩, ?_⟩
    rw [n.isFinite_nearest_iff, Decidable.not_not]
    exact hoverflows

theorem forall_finite_iff (h : IsLastDeclared fact marker text) :
    (∀ x, fact = some x → x.isFinite = true) ↔ ¬ LastOverflows marker text := by
  rw [← h.exists_not_finite_iff]
  constructor
  · rintro hall ⟨x, hx, hfinite⟩
    exact hfinite (hall x hx)
  · intro hnone x hx
    exact Decidable.byContradiction fun hfinite => hnone ⟨x, hx, hfinite⟩

/-- A declared number is finite or plus infinity, and never no number. -/
theorem finite_or_infinite (h : IsLastDeclared fact marker text) {x : Binary64}
    (hx : fact = some x) : x.isFinite = true ∨ x = .infinite false := by
  obtain ⟨n, -, rfl⟩ := (h x).mp hx
  by_cases hoverflows : n.Overflows
  · exact Or.inr ((n.nearest_eq_infinite_iff false).mpr hoverflows)
  · exact Or.inl ((n.isFinite_nearest_iff false).mpr hoverflows)

end IsLastDeclared

/-! ## Facts that are null -/

namespace Json

theorem mem_present_iff {fields : List (String × Option Json)} {name : String} {item : Json} :
    (name, item) ∈ present fields ↔ (name, some item) ∈ fields := by
  unfold present
  rw [List.mem_filterMap]
  constructor
  · rintro ⟨⟨other, value⟩, hmem, hvalue⟩
    obtain ⟨found, rfl, heq⟩ := Option.map_eq_some_iff.mp hvalue
    cases heq
    exact hmem
  · intro hmem
    exact ⟨(name, some item), hmem, rfl⟩

theorem ofBinary64_eq_null_iff {x : Binary64} : ofBinary64 x = .null ↔ ¬ x.isFinite = true := by
  unfold ofBinary64
  by_cases h : x.isFinite = true
  · simp [h]
  · simp [h]

theorem map_ofBinary64_eq_null_iff {fact : Option Binary64} :
    fact.map ofBinary64 = some .null ↔ ∃ x, fact = some x ∧ ¬ x.isFinite = true := by
  rw [Option.map_eq_some_iff]
  constructor
  · rintro ⟨x, hx, hnull⟩
    exact ⟨x, hx, ofBinary64_eq_null_iff.mp hnull⟩
  · rintro ⟨x, hx, hfinite⟩
    exact ⟨x, hx, ofBinary64_eq_null_iff.mpr hfinite⟩

end Json

/-- In its JSON form the report has `null` for the declared fact of that name. -/
def Report.HasNull (report : Report) (name : String) : Prop :=
  ∃ fields facts, report.toJson = .object fields ∧ ("metadata", .object facts) ∈ fields ∧
    (name, .null) ∈ facts

/-- Only the two numbers can be `null`, and they are if they are not finite. -/
theorem Report.hasNull_iff {report : Report} {name : String} :
    report.HasNull name ↔
      name = "filamentUsed" ∧ (∃ x, report.metadata.filamentUsed = some x ∧ ¬ x.isFinite = true) ∨
      name = "layerHeight" ∧ (∃ x, report.metadata.layerHeight = some x ∧ ¬ x.isFinite = true) := by
  obtain ⟨m, layerCount, seconds, source, simulation⟩ := report
  have hfacts : ∀ facts, m.toJson = .object facts → ((name, Json.null) ∈ facts ↔
      name = "filamentUsed" ∧ m.filamentUsed.map Json.ofBinary64 = some .null ∨
      name = "layerHeight" ∧ m.layerHeight.map Json.ofBinary64 = some .null) := by
    intro facts h
    obtain rfl := Json.object.inj h
    -- a text or a natural number is never `null`
    rw [Json.mem_present_iff]
    simp [Json.ofNat, eq_comm]
  simp only [← Json.map_ofBinary64_eq_null_iff]
  constructor
  · rintro ⟨fields, facts, hreport, hmetadata, hnull⟩
    obtain rfl := Json.object.inj hreport
    have hm : m.toJson = .object facts := by
      rw [Json.mem_present_iff] at hmetadata
      simpa [eq_comm] using hmetadata
    exact (hfacts facts hm).mp hnull
  · intro h
    refine ⟨_, _, rfl, List.mem_cons_self, (hfacts _ rfl).mpr h⟩

/-! ## Texts -/

/-- **The declared numbers of a text.** Each is the double nearest to the last number behind
its marker. It is never no number, and finite exactly if that number does not overflow. If
it overflows, every report of the text has `null` for it, and for no other fact. -/
theorem Metadata.declared_numbers (text : List Char) :
    let facts := Metadata.extract text
    let filament := Declaration.filamentMarker
    let height := Declaration.layerHeightMarker
    (IsLastDeclared facts.filamentUsed filament text ∧
      IsLastDeclared facts.layerHeight height text) ∧
    (∀ x, facts.filamentUsed = some x ∨ facts.layerHeight = some x →
      x.isFinite = true ∨ x = .infinite false) ∧
    ((∀ x, facts.filamentUsed = some x → x.isFinite = true) ↔ ¬ LastOverflows filament text) ∧
    ((∀ x, facts.layerHeight = some x → x.isFinite = true) ↔ ¬ LastOverflows height text) ∧
    ∀ settings name, (Document.report ⟨text, settings⟩).HasNull name ↔
      name = "filamentUsed" ∧ LastOverflows filament text ∨
      name = "layerHeight" ∧ LastOverflows height text := by
  intro facts filament height
  have hfilament : IsLastDeclared facts.filamentUsed filament text :=
    isLastDeclared_extract filamentUsed rfl (fun _ _ => rfl) (fun _ => rfl) text
  have hheight : IsLastDeclared facts.layerHeight height text :=
    isLastDeclared_extract layerHeight rfl (fun _ _ => rfl) (fun _ => rfl) text
  refine ⟨⟨hfilament, hheight⟩, ?_, hfilament.forall_finite_iff, hheight.forall_finite_iff, ?_⟩
  · rintro x (hx | hx)
    · exact hfilament.finite_or_infinite hx
    · exact hheight.finite_or_infinite hx
  · intro settings name
    rw [Report.hasNull_iff, Document.metadata_report, Document.metadata,
      hfilament.exists_not_finite_iff, hheight.exists_not_finite_iff]

/-- Four hundred nines are declared as an infinite amount of filament, and the report has
`null` for it. -/
theorem Metadata.declared_four_hundred_nines :
    let text := ";Filament used: ".toList ++ List.replicate 400 '9'
    (Metadata.extract text).filamentUsed = some (.infinite false) ∧
      ¬ Binary64.isFinite (.infinite false) = true ∧
      (Document.report ⟨text, {}⟩).HasNull "filamentUsed" := by
  intro text
  have hused : (Metadata.extract text).filamentUsed = some (.infinite false) := by
    decide +kernel
  refine ⟨hused, by decide, Report.hasNull_iff.mpr (Or.inl ⟨rfl, .infinite false, ?_, by decide⟩)⟩
  rw [Document.metadata_report]
  exact hused

end PrintJob

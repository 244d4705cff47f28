/-
# The patterns of layer marks

A tag and a mention are searches for a pattern in what stands behind the first semicolon of a
line. Here the patterns are written down as shapes of the whole line (`IsTagged`, `Mentions`), and
the searches are shown to find exactly them. A mention can stand anywhere: the search tries every
blank of the comment, so an occurrence of *layer* inside a longer word hides none behind it.
-/
import Mathlib
import PrintJob.Proofs.CharacterRun
import PrintJob.Proofs.CodeEdit

namespace PrintJob

/-! ## Patterns -/

/-- The word *layer* in any mixture of cases. -/
def IsLayer (word : List Char) : Prop :=
  List.Forall₂ (fun c letter => c = letter ∨ c = letter.toUpper) word "layer".toList

/-- Behind the first semicolon the line goes on with *layer* and then a colon or a blank. -/
def IsTagged (line : List Char) : Prop :=
  ∃ code word c rest, ';' ∉ code ∧ line = code ++ ';' :: (word ++ c :: rest) ∧ IsLayer word ∧
    (c = ':' ∨ isBlank c = true)

/-- Somewhere behind the first semicolon of the line there are a blank and *layer*, and then the
end of the line or a character that is no word character. -/
def Mentions (line : List Char) : Prop :=
  ∃ code before blank word after, ';' ∉ code ∧
    line = code ++ ';' :: (before ++ blank :: (word ++ after)) ∧ isBlank blank = true ∧
    IsLayer word ∧ StopsRun isWordCharacter after

/-! ## Letters in either case -/

theorem toLower_eq_iff {c letter : Char} (h : letter.isLower = true) :
    c.toLower = letter ↔ c = letter ∨ c = letter.toUpper := by
  constructor
  · rintro rfl
    by_cases hupper : c.isUpper = true
    · rw [Char.toUpper_toLower_eq_toUpper,
        Char.toUpper_eq_of_not_isLower (Char.not_isLower_of_isUpper hupper)]
      exact Or.inr rfl
    · exact Or.inl (Char.toLower_eq_of_not_isUpper hupper).symm
  · have hlower : letter.toLower = letter :=
      Char.toLower_eq_of_not_isUpper (Char.not_isUpper_of_isLower h)
    rintro (rfl | rfl)
    · exact hlower
    · rw [Char.toLower_toUpper_eq_toLower, hlower]

/-- A text becomes a word of small letters exactly if it has each of them small or as a capital. -/
theorem map_toLower_eq_iff {letters : List Char} (h : ∀ letter ∈ letters, letter.isLower = true)
    (word : List Char) : word.map Char.toLower = letters ↔
      List.Forall₂ (fun c letter => c = letter ∨ c = letter.toUpper) word letters := by
  induction letters generalizing word with
  | nil => rw [List.map_eq_nil_iff, List.forall₂_nil_right_iff]
  | cons letter letters ih =>
    obtain ⟨hletter, hletters⟩ := List.forall_mem_cons.mp h
    cases word with
    | nil => simp
    | cons c word =>
      rw [List.map_cons, List.cons.injEq, List.forall₂_cons, toLower_eq_iff hletter, ih hletters]

theorem isLayer_iff {word : List Char} :
    IsLayer word ↔ word.map Char.toLower = "layer".toList := by
  have hlower : "layer".toList.all Char.isLower = true := by decide
  exact (map_toLower_eq_iff (List.all_eq_true.mp hlower) word).symm

/-! ## The searches in a comment -/

/-- What follows the word at the start of a text. -/
theorem afterLayer_eq_some_iff {cs rest : List Char} :
    afterLayer cs = some rest ↔ ∃ word, cs = word ++ rest ∧ IsLayer word := by
  rw [afterLayer, Option.ite_none_right_eq_some, Option.some.injEq]
  constructor
  · rintro ⟨hword, rfl⟩
    exact ⟨cs.take 5, (List.take_append_drop 5 cs).symm, isLayer_iff.mpr hword⟩
  · rintro ⟨word, rfl, hword⟩
    have hlength : word.length = 5 := hword.length_eq
    rw [List.take_left' hlength, List.drop_left' hlength]
    exact ⟨isLayer_iff.mp hword, rfl⟩

theorem startsWithTag_iff {comment : List Char} :
    startsWithTag comment = true ↔ ∃ word c rest, comment = word ++ c :: rest ∧ IsLayer word ∧
      (c = ':' ∨ isBlank c = true) := by
  constructor
  · intro h
    rw [startsWithTag] at h
    split at h
    · rename_i c rest hrest
      obtain ⟨word, rfl, hword⟩ := afterLayer_eq_some_iff.mp hrest
      rw [Bool.or_eq_true, beq_iff_eq] at h
      exact ⟨word, c, rest, rfl, hword, h⟩
    · cases h
  · rintro ⟨word, c, rest, rfl, hword, hc⟩
    rw [startsWithTag, afterLayer_eq_some_iff.mpr ⟨word, rfl, hword⟩, Bool.or_eq_true, beq_iff_eq]
    exact hc

theorem startsWithLayerWord_iff {cs : List Char} :
    startsWithLayerWord cs = true ↔ ∃ word after, cs = word ++ after ∧ IsLayer word ∧
      StopsRun isWordCharacter after := by
  have hstops : ∀ after, afterLayer cs = some after →
      (startsWithLayerWord cs = true ↔ StopsRun isWordCharacter after) := by
    intro after hafter
    rw [startsWithLayerWord, hafter]
    cases after with
    | nil => exact iff_of_true rfl stopsRun_nil
    | cons c rest => rw [stopsRun_cons, Bool.not_eq_true']
  constructor
  · intro h
    cases hafter : afterLayer cs with
    | none =>
      rw [startsWithLayerWord, hafter] at h
      cases h
    | some after =>
      obtain ⟨word, heq, hword⟩ := afterLayer_eq_some_iff.mp hafter
      exact ⟨word, after, heq, hword, (hstops after hafter).mp h⟩
  · rintro ⟨word, after, heq, hword, hafter⟩
    exact (hstops after (afterLayer_eq_some_iff.mpr ⟨word, heq, hword⟩)).mpr hafter

/-- The search for a mention tries every blank. -/
theorem mentionsLayer_iff {comment : List Char} :
    mentionsLayer comment = true ↔ ∃ before blank cs, comment = before ++ blank :: cs ∧
      isBlank blank = true ∧ startsWithLayerWord cs = true := by
  induction comment with
  | nil => simp [mentionsLayer]
  | cons c comment ih =>
    rw [mentionsLayer, Bool.or_eq_true, Bool.and_eq_true, ih]
    constructor
    · rintro (⟨hblank, hword⟩ | ⟨before, blank, cs, rfl, hblank, hword⟩)
      · exact ⟨[], c, comment, rfl, hblank, hword⟩
      · exact ⟨c :: before, blank, cs, rfl, hblank, hword⟩
    · rintro ⟨before, blank, cs, heq, hblank, hword⟩
      cases before with
      | nil =>
        obtain ⟨rfl, rfl⟩ := List.cons.inj heq
        exact Or.inl ⟨hblank, hword⟩
      | cons d before =>
        obtain ⟨rfl, rfl⟩ := List.cons.inj heq
        exact Or.inr ⟨before, blank, cs, rfl, hblank, hword⟩

/-! ## Lines and texts -/

/-- The text that is looked at stands behind the first semicolon of the line. -/
theorem commentOf_eq_some_iff_code {line comment : List Char} :
    commentOf line = some comment ↔ ∃ code, ';' ∉ code ∧ line = code ++ ';' :: comment := by
  constructor
  · intro h
    by_cases hmem : ';' ∈ line
    · obtain ⟨code, behind, rfl, hcode⟩ := List.eq_append_cons_of_mem hmem
      rw [commentOf_code hcode] at h
      exact ⟨code, hcode, by rw [Option.some.inj h]⟩
    · rw [commentOf, afterFirstChar_eq_none hmem] at h
      cases h
  · rintro ⟨code, hcode, rfl⟩
    exact commentOf_code hcode comment

theorem hasLayerTag_iff (line : List Char) : hasLayerTag line = true ↔ IsTagged line := by
  rw [hasLayerTag, Option.any_eq_true]
  constructor
  · rintro ⟨comment, hcomment, htag⟩
    obtain ⟨code, hcode, rfl⟩ := commentOf_eq_some_iff_code.mp hcomment
    obtain ⟨word, c, rest, rfl, hword, hc⟩ := startsWithTag_iff.mp htag
    exact ⟨code, word, c, rest, hcode, rfl, hword, hc⟩
  · rintro ⟨code, word, c, rest, hcode, rfl, hword, hc⟩
    exact ⟨word ++ c :: rest, commentOf_code hcode _,
      startsWithTag_iff.mpr ⟨word, c, rest, rfl, hword, hc⟩⟩

theorem hasLayerMention_iff (line : List Char) : hasLayerMention line = true ↔ Mentions line := by
  rw [hasLayerMention, Option.any_eq_true]
  constructor
  · rintro ⟨comment, hcomment, hmention⟩
    obtain ⟨code, hcode, rfl⟩ := commentOf_eq_some_iff_code.mp hcomment
    obtain ⟨before, blank, cs, rfl, hblank, hstart⟩ := mentionsLayer_iff.mp hmention
    obtain ⟨word, after, rfl, hword, hafter⟩ := startsWithLayerWord_iff.mp hstart
    exact ⟨code, before, blank, word, after, hcode, rfl, hblank, hword, hafter⟩
  · rintro ⟨code, before, blank, word, after, hcode, rfl, hblank, hword, hafter⟩
    exact ⟨before ++ blank :: (word ++ after), commentOf_code hcode _, mentionsLayer_iff.mpr
      ⟨before, blank, word ++ after, rfl, hblank, startsWithLayerWord_iff.mpr
        ⟨word, after, rfl, hword, hafter⟩⟩⟩

instance (line : List Char) : Decidable (IsTagged line) :=
  decidable_of_iff _ (hasLayerTag_iff line)

instance (line : List Char) : Decidable (Mentions line) :=
  decidable_of_iff _ (hasLayerMention_iff line)

/-- The marks of a line are its patterns. -/
theorem layerMarks_eq (line : List Char) :
    layerMarks line = (if IsTagged line then 1 else 0) + if Mentions line then 1 else 0 := by
  simp only [layerMarks, hasLayerTag_iff, hasLayerMention_iff]

/-- The marks of some lines are the tagged ones and those with a mention. -/
theorem foldr_layerMarks_eq (ls : List (List Char)) :
    ls.foldr (fun line count => layerMarks line + count) 0 =
      ls.countP (fun line => IsTagged line) + ls.countP fun line => Mentions line := by
  induction ls with
  | nil => rfl
  | cons line ls ih =>
    rw [List.foldr_cons, ih, layerMarks_eq, List.countP_cons, List.countP_cons]
    simp only [decide_eq_true_eq]
    omega

/-- **Layer marks are exactly the two patterns.** A line has a tag if it has the pattern of a tag,
and a mention if it has that of a mention anywhere behind its first semicolon. A line has one mark
for each pattern, and a text has the marks of all of its lines. -/
theorem layerMarks_are_patterns :
    (∀ line, (hasLayerTag line = true ↔ IsTagged line) ∧
      (hasLayerMention line = true ↔ Mentions line) ∧
      layerMarks line = (if IsTagged line then 1 else 0) + if Mentions line then 1 else 0) ∧
    ∀ text, countLayers text =
      (lines text).countP (fun line => IsTagged line) +
        (lines text).countP fun line => Mentions line :=
  ⟨fun line => ⟨hasLayerTag_iff line, hasLayerMention_iff line, layerMarks_eq line⟩,
    fun text => foldr_layerMarks_eq (lines text)⟩

/-- The mention is found behind two longer words that begin in the same way. -/
example : hasLayerMention "; layers layerlayer LaYer".toList = true := by decide +kernel

end PrintJob

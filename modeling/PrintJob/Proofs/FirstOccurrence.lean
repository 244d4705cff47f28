/-
# The first occurrence of a marker

The search without regard to case goes through the bytes of a text, one offset after the other,
and does not know where characters begin. What it finds can still be said in characters
(`IsFirstOccurrence`). Capitals become small letters in the characters of a text as they do in
its bytes (`utf8_map_toLower`), so a marker that begins where a character begins takes whole
characters. Inside a character of several bytes no marker begins, since none of these bytes is
ASCII. The search therefore passes by a text character by character (`findBytesFrom_utf8_cons`),
and the text behind the marker is cut off between two characters.
-/
import Mathlib
import PrintJob.Declaration
import PrintJob.Proofs.CharacterRun
import PrintJob.Proofs.MarkerSearch

namespace PrintJob

/-! ## Occurrences -/

/-- A text that can be searched for: at least one character, and only ASCII. -/
structure IsMarker (marker : List Char) : Prop where
  ne_nil : marker ≠ []
  ascii : ∀ c ∈ marker, c.toNat < 0x80

theorem isMarker_iff {marker : List Char} :
    IsMarker marker ↔ marker ≠ [] ∧ marker.all (fun c => decide (c.toNat < 0x80)) = true := by
  rw [List.all_eq_true]
  constructor
  · rintro ⟨hne, hascii⟩
    exact ⟨hne, fun c hc => decide_eq_true (hascii c hc)⟩
  · rintro ⟨hne, hascii⟩
    exact ⟨hne, fun c hc => of_decide_eq_true (hascii c hc)⟩

instance (marker : List Char) : Decidable (IsMarker marker) := decidable_of_iff' _ isMarker_iff

/-- The word in the text between `front` and `back` is the marker, up to the case of ASCII
letters. -/
structure IsOccurrence (marker text front word back : List Char) : Prop where
  text_eq : text = front ++ (word ++ back)
  same : word.map Char.toLower = marker.map Char.toLower

/-- No occurrence of the marker begins further in front, not even one that overlaps. -/
structure IsFirstOccurrence (marker text front word back : List Char) : Prop extends
    IsOccurrence marker text front word back where
  earliest : ∀ other word back, IsOccurrence marker text other word back →
    front.length ≤ other.length

/-- The text begins with an occurrence of the marker. -/
def BeginsWith (marker text : List Char) : Prop :=
  ∃ word back, IsOccurrence marker text [] word back

variable {marker text front word back : List Char}

theorem isOccurrence_cons_iff {c : Char} :
    IsOccurrence marker (c :: text) (c :: front) word back ↔
      IsOccurrence marker text front word back := by
  constructor
  · rintro ⟨heq, hsame⟩
    exact ⟨(List.cons.inj heq).2, hsame⟩
  · rintro ⟨rfl, hsame⟩
    exact ⟨rfl, hsame⟩

/-- The start of a text is compared in small letters. -/
theorem beginsWith_iff :
    BeginsWith marker text ↔ marker.map Char.toLower <+: text.map Char.toLower := by
  constructor
  · rintro ⟨word, back, rfl, hsame⟩
    rw [List.nil_append, List.map_append, hsame]
    exact List.prefix_append _ _
  · rintro ⟨rest, hrest⟩
    obtain ⟨word, back, rfl, hword, -⟩ := List.map_eq_append_iff.mp hrest.symm
    exact ⟨word, back, rfl, hword⟩

/-- An occurrence at the start of a text is the first one. -/
theorem IsOccurrence.isFirst (h : IsOccurrence marker text [] word back) :
    IsFirstOccurrence marker text [] word back where
  toIsOccurrence := h
  earliest other _ _ _ := Nat.zero_le other.length

/-- A first occurrence stays the first one behind one more character at which none begins. -/
theorem IsFirstOccurrence.cons (h : IsFirstOccurrence marker text front word back) {c : Char}
    (hbegins : ¬ BeginsWith marker (c :: text)) :
    IsFirstOccurrence marker (c :: text) (c :: front) word back where
  toIsOccurrence := isOccurrence_cons_iff.mpr h.toIsOccurrence
  earliest := by
    intro other word' back' hother
    cases other with
    | nil => exact absurd ⟨word', back', hother⟩ hbegins
    | cons d other =>
      obtain rfl : c = d := (List.cons.inj hother.text_eq).1
      exact Nat.succ_le_succ (h.earliest other word' back' (isOccurrence_cons_iff.mp hother))

/-- Behind one character less a first occurrence is still the first one. -/
theorem IsFirstOccurrence.tail {c : Char}
    (h : IsFirstOccurrence marker (c :: text) (c :: front) word back) :
    IsFirstOccurrence marker text front word back where
  toIsOccurrence := isOccurrence_cons_iff.mp h.toIsOccurrence
  earliest other word' back' hother :=
    Nat.le_of_succ_le_succ (h.earliest (c :: other) word' back' (isOccurrence_cons_iff.mpr hother))

/-- In front of a first occurrence no other one begins. -/
theorem IsFirstOccurrence.not_beginsWith {c : Char}
    (h : IsFirstOccurrence marker text (c :: front) word back) : ¬ BeginsWith marker text := by
  rintro ⟨word', back', hother⟩
  exact Nat.not_succ_le_zero _ (h.earliest [] word' back' hother)

/-- A text with an occurrence has a first one. -/
theorem IsOccurrence.exists_first (h : IsOccurrence marker text front word back) :
    ∃ front word back, IsFirstOccurrence marker text front word back := by
  induction front generalizing text with
  | nil => exact ⟨[], word, back, h.isFirst⟩
  | cons c front ih =>
    obtain ⟨rfl, hsame⟩ := h
    by_cases hbegins : BeginsWith marker (c :: front ++ (word ++ back))
    · obtain ⟨word', back', hoccurs⟩ := hbegins
      exact ⟨[], word', back', hoccurs.isFirst⟩
    · obtain ⟨front', word', back', hfirst⟩ := ih ⟨rfl, hsame⟩
      exact ⟨c :: front', word', back', hfirst.cons hbegins⟩

/-! ## Small letters in bytes and in characters -/

/-- Only bytes of ASCII characters are changed. -/
theorem lowerByte_of_le {b : UInt8} (h : 0x80 ≤ b.toNat) : lowerByte b = b := by
  refine if_neg fun hletter => ?_
  have hle := UInt8.le_iff_toNat_le.mp hletter.2
  simp only [UInt8.reduceToNat] at hle
  omega

/-- ASCII bytes stay ASCII. -/
theorem toNat_lowerByte_lt {b : UInt8} (h : b.toNat < 0x80) : (lowerByte b).toNat < 0x80 := by
  unfold lowerByte
  split
  · rename_i hletter
    have hle := UInt8.le_iff_toNat_le.mp hletter.2
    rw [UInt8.toNat_add]
    simp only [UInt8.reduceToNat] at hle ⊢
    omega
  · exact h

/-- The bytes of a character beyond ASCII are not ASCII. -/
theorem le_of_mem_utf8EncodeChar {c : Char} (hc : ¬ c.toNat < 0x80) {b : UInt8}
    (hb : b ∈ String.utf8EncodeChar c) : 0x80 ≤ b.toNat := by
  rw [← Nat.not_lt]
  intro hlt
  rw [toNat_eq_of_mem_utf8EncodeChar hb hlt] at hc
  exact hc hlt

theorem toLower_of_not_ascii {c : Char} (h : ¬ c.toNat < 0x80) : c.toLower = c := by
  refine Char.toLower_eq_of_not_isUpper fun hupper => h ?_
  have hle : c.toNat ≤ 'Z'.toNat := (of_decide_eq_true hupper).2
  exact Nat.lt_of_le_of_lt hle (by decide)

/-- A character in small letters has its bytes in small letters. -/
theorem utf8EncodeChar_toLower (c : Char) :
    String.utf8EncodeChar c.toLower = (String.utf8EncodeChar c).map lowerByte := by
  by_cases hascii : c.toNat < 0x80
  · refine of_ascii (P := fun c => String.utf8EncodeChar c.toLower =
      (String.utf8EncodeChar c).map lowerByte) ?_ hascii
    decide +kernel
  · have hsame : ∀ b ∈ String.utf8EncodeChar c, lowerByte b = b := fun b hb =>
      lowerByte_of_le (le_of_mem_utf8EncodeChar hascii hb)
    rw [toLower_of_not_ascii hascii, List.map_congr_left hsame, List.map_id']

theorem utf8_map_toLower (cs : List Char) :
    utf8 (cs.map Char.toLower) = (utf8 cs).map lowerByte := by
  induction cs with
  | nil => rfl
  | cons c cs ih =>
    rw [List.map_cons, utf8_cons, utf8_cons, List.map_append, utf8EncodeChar_toLower, ih]

/-- A text begins with another one if its bytes do. -/
theorem prefix_of_utf8_prefix {a b : List Char} (h : utf8 a <+: utf8 b) : a <+: b := by
  obtain ⟨rest, hrest⟩ := h
  apply List.isPrefix_of_utf8Encode_append_eq_utf8Encode rest.toByteArray
  show (utf8 a).toByteArray ++ rest.toByteArray = (utf8 b).toByteArray
  rw [← List.toByteArray_append, hrest]

/-! ## The search in bytes -/

/-- The start of some bytes is compared in small letters. -/
theorem startsCaseless_iff {marker bytes : List UInt8} :
    startsCaseless marker bytes = true ↔ marker.map lowerByte <+: bytes.map lowerByte := by
  induction marker generalizing bytes with
  | nil => exact iff_of_true rfl List.nil_prefix
  | cons m marker ih =>
    cases bytes with
    | nil => simp [startsCaseless]
    | cons b bytes =>
      rw [startsCaseless, Bool.and_eq_true, beq_iff_eq, ih, List.map_cons, List.map_cons,
        List.cons_prefix_cons]

/-- The bytes of a text begin with those of a marker exactly if the text begins with it. -/
theorem startsCaseless_utf8_iff :
    startsCaseless (utf8 marker) (utf8 text) = true ↔ BeginsWith marker text := by
  rw [startsCaseless_iff, beginsWith_iff, ← utf8_map_toLower, ← utf8_map_toLower]
  constructor
  · exact prefix_of_utf8_prefix
  · rintro ⟨rest, hrest⟩
    rw [← hrest, utf8_append]
    exact List.prefix_append _ _

/-- Bytes that begin with the marker are found at once. -/
theorem findBytesFrom_of_startsCaseless {marker bytes : List UInt8} (hne : marker ≠ [])
    (h : startsCaseless marker bytes = true) (offset : Nat) :
    findBytesFrom marker offset bytes = some offset := by
  cases bytes with
  | nil =>
    cases marker with
    | nil => exact absurd rfl hne
    | cons m marker => exact Bool.noConfusion h
  | cons b bytes => exact if_pos h

namespace IsMarker

/-- The first byte of a marker is ASCII. -/
theorem exists_utf8_cons (h : IsMarker marker) :
    ∃ m bytes, utf8 marker = m :: bytes ∧ m.toNat < 0x80 := by
  obtain ⟨c, cs, rfl⟩ := List.exists_cons_of_ne_nil h.ne_nil
  have hc : c.toNat < 0x80 := h.ascii c List.mem_cons_self
  refine ⟨UInt8.ofNat c.toNat, utf8 cs, ?_, ?_⟩
  · rw [utf8_cons, utf8EncodeChar_of_lt hc, List.singleton_append]
  · rw [UInt8.toNat_ofNat']
    omega

/-- **A character with which no marker begins is passed by with all its bytes.** -/
theorem findBytesFrom_utf8_cons (h : IsMarker marker) {c : Char} {cs : List Char}
    (hbegins : ¬ BeginsWith marker (c :: cs)) (offset : Nat) :
    findBytesFrom (utf8 marker) offset (utf8 (c :: cs)) =
      findBytesFrom (utf8 marker) (offset + (String.utf8EncodeChar c).length) (utf8 cs) := by
  by_cases hascii : c.toNat < 0x80
  · have hstarts : ¬ startsCaseless (utf8 marker) (utf8 (c :: cs)) = true :=
      fun hstarts => hbegins (startsCaseless_utf8_iff.mp hstarts)
    rw [utf8_cons, utf8EncodeChar_of_lt hascii, List.singleton_append] at hstarts ⊢
    rw [findBytesFrom, if_neg hstarts]
    rfl
  · -- the marker would have to begin with a byte that is not ASCII
    obtain ⟨m, bytes, hmarker, hm⟩ := h.exists_utf8_cons
    rw [hmarker, utf8_cons]
    refine findBytesFrom_append ?_ bytes offset (utf8 cs)
    intro b hb heq
    have hhigh := le_of_mem_utf8EncodeChar hascii hb
    have hlow := toNat_lowerByte_lt hm
    rw [heq, lowerByte_of_le hhigh] at hlow
    exact Nat.not_lt.mpr hhigh hlow

/-- The search ends at the first occurrence. -/
theorem findBytesFrom_utf8 (h : IsMarker marker)
    (hfirst : IsFirstOccurrence marker text front word back) (offset : Nat) :
    findBytesFrom (utf8 marker) offset (utf8 text) = some (offset + (utf8 front).length) := by
  -- nothing begins in `front`, so the search passes by its characters one by one
  induction front generalizing text offset with
  | nil =>
    have hstarts := startsCaseless_utf8_iff.mpr ⟨word, back, hfirst.toIsOccurrence⟩
    obtain ⟨m, bytes, hmarker, -⟩ := h.exists_utf8_cons
    exact findBytesFrom_of_startsCaseless (hmarker ▸ List.cons_ne_nil m bytes) hstarts offset
  | cons c front ih =>
    have hbegins := hfirst.not_beginsWith
    obtain rfl := hfirst.text_eq
    rw [List.cons_append] at hbegins hfirst ⊢
    rw [h.findBytesFrom_utf8_cons hbegins, ih hfirst.tail, utf8_cons, List.length_append,
      Nat.add_assoc]

/-- Without an occurrence the search comes to the end of the text. -/
theorem findBytesFrom_utf8_eq_none (h : IsMarker marker)
    (hnone : ∀ front word back, ¬ IsOccurrence marker text front word back) (offset : Nat) :
    findBytesFrom (utf8 marker) offset (utf8 text) = none := by
  induction text generalizing offset with
  | nil => rfl
  | cons c cs ih =>
    have hbegins : ¬ BeginsWith marker (c :: cs) := by
      rintro ⟨word, back, hoccurs⟩
      exact hnone [] word back hoccurs
    rw [h.findBytesFrom_utf8_cons hbegins]
    exact ih (fun front word back hoccurs =>
      hnone (c :: front) word back (isOccurrence_cons_iff.mpr hoccurs)) _

theorem findCaseless_eq (h : IsMarker marker) (text : List Char) :
    findCaseless marker text = findBytesFrom (utf8 marker) 0 (utf8 text) := by
  refine if_neg ?_
  rw [List.isEmpty_iff]
  exact h.ne_nil

/-- **The place that is found is the byte offset of the first occurrence.** -/
theorem findCaseless_of_isFirst (h : IsMarker marker)
    (hfirst : IsFirstOccurrence marker text front word back) :
    findCaseless marker text = some (utf8 front).length := by
  rw [h.findCaseless_eq, h.findBytesFrom_utf8 hfirst, Nat.zero_add]

/-- **Nothing is found exactly if the marker does not occur.** -/
theorem findCaseless_eq_none_iff (h : IsMarker marker) : findCaseless marker text = none ↔
    ∀ front word back, ¬ IsOccurrence marker text front word back := by
  constructor
  · intro hnone front word back hoccurs
    obtain ⟨front', word', back', hfirst⟩ := hoccurs.exists_first
    rw [h.findCaseless_of_isFirst hfirst] at hnone
    exact Option.some_ne_none _ hnone
  · intro hnone
    rw [h.findCaseless_eq, h.findBytesFrom_utf8_eq_none hnone]

theorem findCaseless_eq_some_iff (h : IsMarker marker) {place : Nat} :
    findCaseless marker text = some place ↔
      ∃ front word back, IsFirstOccurrence marker text front word back ∧
        (utf8 front).length = place := by
  constructor
  · intro hplace
    have hsome : ¬ ∀ front word back, ¬ IsOccurrence marker text front word back := fun hnone =>
      Option.some_ne_none place (hplace.symm.trans (h.findCaseless_eq_none_iff.mpr hnone))
    push Not at hsome
    obtain ⟨_, _, _, hoccurs⟩ := hsome
    obtain ⟨front, word, back, hfirst⟩ := hoccurs.exists_first
    rw [h.findCaseless_of_isFirst hfirst] at hplace
    exact ⟨front, word, back, hfirst, Option.some.inj hplace⟩
  · rintro ⟨front, word, back, hfirst, rfl⟩
    exact h.findCaseless_of_isFirst hfirst

end IsMarker

/-! ## The text behind the marker -/

/-- A marker has as many bytes as characters. -/
theorem IsMarker.length_utf8 (h : IsMarker marker) : (utf8 marker).length = marker.length := by
  obtain ⟨-, hascii⟩ := h
  induction marker with
  | nil => rfl
  | cons c cs ih =>
    obtain ⟨hc, hcs⟩ := List.forall_mem_cons.mp hascii
    rw [length_utf8_cons, utf8Size_of_lt hc, ih hcs, List.length_cons, Nat.add_comm]

/-- An occurrence has as many bytes as the marker. -/
theorem IsOccurrence.length_utf8 (h : IsOccurrence marker text front word back) :
    (utf8 word).length = (utf8 marker).length := by
  have hbytes := congrArg (fun cs => (utf8 cs).length) h.same
  simp only [utf8_map_toLower, List.length_map] at hbytes
  exact hbytes

/-- The end of an occurrence lies between two characters. -/
theorem IsOccurrence.isBoundary_end (h : IsOccurrence marker text front word back)
    (hmarker : IsMarker marker) : IsBoundary text ((utf8 front).length + marker.length) := by
  have hplace : (utf8 front).length + marker.length = (utf8 (front ++ word)).length := by
    rw [utf8_append, List.length_append, h.length_utf8, hmarker.length_utf8]
  rw [h.text_eq, hplace, ← List.append_assoc]
  exact isBoundary_append (front ++ word) back

/-- **What is cut off is the text behind the first occurrence.** -/
theorem IsMarker.afterCaseless_of_isFirst (h : IsMarker marker)
    (hfirst : IsFirstOccurrence marker text front word back) :
    afterCaseless marker text = some back := by
  rw [afterCaseless, h.findCaseless_of_isFirst hfirst, Option.map_some, hfirst.text_eq,
    dropBytes_append, ← hfirst.length_utf8]
  have hdrop := dropBytes_append word 0 back
  rw [Nat.add_zero] at hdrop
  rw [hdrop, dropBytes]

/-! ## What is read behind a marker -/

/-- The value of a line is read from the text behind the first occurrence of the marker, and a
line without an occurrence has no value. -/
structure ReadsBehind {α : Type} (marker : List Char) (read value : List Char → Option α) :
    Prop where
  of_first : ∀ line front word back, IsFirstOccurrence marker line front word back →
    value line = read back
  of_none : ∀ line, (∀ front word back, ¬ IsOccurrence marker line front word back) →
    value line = none

theorem IsMarker.readsBehind {α : Type} (h : IsMarker marker) (read : List Char → Option α) :
    ReadsBehind marker read fun line => (afterCaseless marker line).bind read where
  of_first line front word back hfirst := by
    rw [h.afterCaseless_of_isFirst hfirst, Option.bind_some]
  of_none line hnone := by
    rw [afterCaseless, h.findCaseless_eq_none_iff.mpr hnone, Option.map_none, Option.bind_none]

/-- **The search for a marker in bytes is a search in characters.** A place is found exactly if the
marker occurs in the text up to the case of ASCII letters, and the place is the byte offset of the
first occurrence. The occurrence begins and ends between two characters, so the text behind it is
cut off at a byte without a loss. This is what the numbers and the duration that slicers declare
are read from. -/
theorem findCaseless_finds_first_occurrence :
    (∀ marker text, IsMarker marker →
      (∀ place, findCaseless marker text = some place ↔
        ∃ front word back, IsFirstOccurrence marker text front word back ∧
          (utf8 front).length = place) ∧
      (findCaseless marker text = none ↔
        ∀ front word back, ¬ IsOccurrence marker text front word back) ∧
      ∀ place, findCaseless marker text = some place →
        IsBoundary text place ∧ IsBoundary text (place + marker.length) ∧
          ∃ rest, afterCaseless marker text = some rest ∧
            utf8 rest = (utf8 text).drop (place + marker.length)) ∧
    ReadsBehind Declaration.filamentMarker firstNumber Declaration.filamentUsed ∧
    ReadsBehind Declaration.layerHeightMarker firstNumber Declaration.layerHeight ∧
    ReadsBehind Declaration.printingTimeMarker Duration.parse Declaration.printingTime := by
  refine ⟨fun marker text h => ⟨fun place => h.findCaseless_eq_some_iff,
      h.findCaseless_eq_none_iff, fun place hplace => ?_⟩,
    IsMarker.readsBehind (by decide) firstNumber, IsMarker.readsBehind (by decide) firstNumber,
    IsMarker.readsBehind (by decide) Duration.parse⟩
  obtain ⟨front, word, back, hfirst, rfl⟩ := h.findCaseless_eq_some_iff.mp hplace
  refine ⟨?_, hfirst.isBoundary_end h, back, h.afterCaseless_of_isFirst hfirst, ?_⟩
  · rw [hfirst.text_eq]
    exact isBoundary_append front (word ++ back)
  · rw [hfirst.text_eq, utf8_append, utf8_append, ← h.length_utf8, ← hfirst.length_utf8,
      ← List.drop_drop, List.drop_left, List.drop_left]

/-- A long s is no letter of the marker, and of two semicolons the second begins it. -/
theorem findCaseless_past_long_s :
    let marker := Declaration.filamentMarker
    let text := "\u00fc;filament u\u017fed: 1;;FILAMENT Used: 2m\u20ac".toList
    IsMarker marker ∧ findCaseless marker text = some 21 ∧
      (∃ front word back, IsFirstOccurrence marker text front word back ∧
        (utf8 front).length = 21 ∧ Declaration.filamentUsed text = firstNumber back) ∧
      IsBoundary text 21 ∧ IsBoundary text 36 ∧
        ∃ rest, afterCaseless marker text = some rest ∧ utf8 rest = (utf8 text).drop 36 := by
  intro marker text
  have hmarker : IsMarker marker := by decide
  have hplace : findCaseless marker text = some 21 := by decide +kernel
  obtain ⟨hsearch, hfilament, -, -⟩ := findCaseless_finds_first_occurrence
  obtain ⟨hsome, -, hbehind⟩ := hsearch marker text hmarker
  obtain ⟨front, word, back, hfirst, hlength⟩ := (hsome 21).mp hplace
  exact ⟨hmarker, hplace,
    ⟨front, word, back, hfirst, hlength, hfilament.of_first text front word back hfirst⟩,
    hbehind 21 hplace⟩

end PrintJob

/-
# Where a marker can be found

A text in which a marker is found has the characters of the marker. For the exact
search this is so for every character (`afterFirst_eq_none`). The search without
regard to case goes byte by byte and takes letters of either case; there it is so
for characters in front of the ASCII letters, such as the semicolon
(`afterCaseless_eq_none`): no byte of a character beyond ASCII is below `0x80`, and
no letter is equal to them up to case.

For the same reason a marker is not found, not even in part, in front of the first of
these characters, if it begins with it. What stands there can be replaced, and the text
behind the marker stays the same (`afterFirst_append`, `afterCaseless_append`).
-/
import Mathlib.Data.List.TakeWhile
import PrintJob.Text.Search

namespace PrintJob

/-! ## Exact search -/

/-- A marker with a character that the text lacks is not found. -/
theorem afterFirst_eq_none {marker text : List Char} {c : Char} (hc : c ∈ marker)
    (h : c ∉ text) : afterFirst marker text = none := by
  induction text with
  | nil =>
    have hne : marker.isEmpty = false := List.isEmpty_eq_false_iff.mpr (List.ne_nil_of_mem hc)
    rw [afterFirst, hne]
    rfl
  | cons d cs ih =>
    have hprefix : ¬ marker.isPrefixOf (d :: cs) = true := fun hmarker =>
      h ((List.isPrefixOf_iff_prefix.mp hmarker).subset hc)
    rw [afterFirst, if_neg hprefix]
    exact ih fun hmem => h (List.mem_cons_of_mem d hmem)

/-- Behind a character that the text lacks there is nothing. -/
theorem afterFirstChar_eq_none {c : Char} {text : List Char} (h : c ∉ text) :
    afterFirstChar c text = none := by
  have hdrop : text.dropWhile (· != c) = [] := by
    rw [List.dropWhile_eq_nil_iff]
    intro d hd
    exact bne_iff_ne.mpr fun heq => h (heq ▸ hd)
  rw [afterFirstChar, hdrop]

/-! ## Bytes of ASCII characters -/

/-- A byte below `0x80` is the only byte of its character. -/
theorem toNat_eq_of_mem_utf8EncodeChar {c : Char} {b : UInt8} (h : b ∈ String.utf8EncodeChar c)
    (hb : b.toNat < 0x80) : c.toNat = b.toNat := by
  have hval : c.val.toNat = c.toNat := rfl
  simp only [String.utf8EncodeChar, hval] at h
  by_cases hone : c.toNat ≤ 0x7f
  · rw [if_pos hone, List.mem_singleton] at h
    rw [h, UInt8.toNat_ofNat']
    omega
  · exfalso
    have hhigh : ∀ n, 0x80 ≤ n % 0x100 → b ≠ UInt8.ofNat n := by
      rintro n hn rfl
      rw [UInt8.toNat_ofNat'] at hb
      omega
    -- every byte of a longer form has its top bit set
    rw [if_neg hone] at h
    split at h
    · simp only [List.mem_cons, List.not_mem_nil, or_false] at h
      rcases h with h | h <;> exact hhigh _ (by omega) h
    · split at h <;> simp only [List.mem_cons, List.not_mem_nil, or_false] at h
      · rcases h with h | h | h <;> exact hhigh _ (by omega) h
      · rcases h with h | h | h | h <;> exact hhigh _ (by omega) h

/-- An ASCII character is one byte. -/
theorem utf8EncodeChar_of_lt {c : Char} (h : c.toNat < 0x80) :
    String.utf8EncodeChar c = [UInt8.ofNat c.toNat] := by
  have hval : c.val.toNat = c.toNat := rfl
  simp only [String.utf8EncodeChar, hval]
  exact if_pos (Nat.le_of_lt_succ h)

theorem utf8Size_of_lt {c : Char} (h : c.toNat < 0x80) : c.utf8Size = 1 := by
  rw [← String.length_utf8EncodeChar, utf8EncodeChar_of_lt h, List.length_singleton]

/-- The bytes below `0x80` in the UTF-8 form of a text are its ASCII characters. -/
theorem mem_utf8_iff {text : List Char} {c : Char} (h : c.toNat < 0x80) :
    UInt8.ofNat c.toNat ∈ utf8 text ↔ c ∈ text := by
  have hbyte : (UInt8.ofNat c.toNat).toNat = c.toNat := by
    rw [UInt8.toNat_ofNat']
    omega
  unfold utf8
  rw [List.mem_flatMap]
  constructor
  · rintro ⟨d, hd, hmem⟩
    have hlow : (UInt8.ofNat c.toNat).toNat < 0x80 := by rw [hbyte]; exact h
    have heq := toNat_eq_of_mem_utf8EncodeChar hmem hlow
    rw [hbyte] at heq
    exact Char.toNat_inj.mp heq ▸ hd
  · intro hc
    refine ⟨c, hc, ?_⟩
    rw [utf8EncodeChar_of_lt h]
    exact List.mem_singleton_self _

/-- A byte in front of the letters is equal only to itself up to case. -/
theorem eq_of_lowerByte_eq {m b : UInt8} (hm : m.toNat < 0x41) (h : lowerByte m = lowerByte b) :
    b = m := by
  have hsame : lowerByte m = m := if_neg fun hletter => by
    have hle := UInt8.le_iff_toNat_le.mp hletter.1
    exact absurd hm (Nat.not_lt.mpr hle)
  rw [hsame, lowerByte] at h
  split at h
  · -- a capital becomes a small letter, which lies behind the capitals
    rename_i hletter
    have hlow := UInt8.le_iff_toNat_le.mp hletter.1
    have hhigh := UInt8.le_iff_toNat_le.mp hletter.2
    have hsum := congrArg UInt8.toNat h
    rw [UInt8.toNat_add] at hsum
    simp only [UInt8.reduceToNat] at hlow hhigh hsum
    omega
  · exact h.symm

/-! ## Search without regard to case -/

/-- A text of bytes that begins with a marker has all its bytes, up to case. -/
theorem exists_mem_of_startsCaseless {marker bytes : List UInt8}
    (h : startsCaseless marker bytes = true) {m : UInt8} (hm : m ∈ marker) :
    ∃ b ∈ bytes, lowerByte m = lowerByte b := by
  induction marker generalizing bytes with
  | nil => cases hm
  | cons n marker ih =>
    cases bytes with
    | nil => cases h
    | cons b bytes =>
      rw [startsCaseless, Bool.and_eq_true, beq_iff_eq] at h
      rcases List.mem_cons.mp hm with rfl | hm
      · exact ⟨b, List.mem_cons_self, h.1⟩
      · obtain ⟨b', hb, heq⟩ := ih h.2 hm
        exact ⟨b', List.mem_cons_of_mem b hb, heq⟩

/-- A text of bytes in which a marker is found has all its bytes, up to case. -/
theorem exists_mem_of_findBytesFrom {marker bytes : List UInt8} {offset place : Nat}
    (h : findBytesFrom marker offset bytes = some place) {m : UInt8} (hm : m ∈ marker) :
    ∃ b ∈ bytes, lowerByte m = lowerByte b := by
  induction bytes generalizing offset with
  | nil => cases h
  | cons b bytes ih =>
    rw [findBytesFrom] at h
    by_cases hstarts : startsCaseless marker (b :: bytes) = true
    · exact exists_mem_of_startsCaseless hstarts hm
    · rw [if_neg hstarts] at h
      obtain ⟨b', hb, heq⟩ := ih h
      exact ⟨b', List.mem_cons_of_mem b hb, heq⟩

/-- A text in which a marker is found has those of its characters that lie in front
of the letters. -/
theorem mem_of_findCaseless {marker text : List Char} {place : Nat}
    (h : findCaseless marker text = some place) {c : Char} (hc : c ∈ marker)
    (hlow : c.toNat < 0x41) : c ∈ text := by
  have hascii : c.toNat < 0x80 := Nat.lt_trans hlow (by decide)
  have hne : marker.isEmpty = false := List.isEmpty_eq_false_iff.mpr (List.ne_nil_of_mem hc)
  rw [findCaseless, hne] at h
  obtain ⟨b, hb, heq⟩ := exists_mem_of_findBytesFrom h ((mem_utf8_iff hascii).mpr hc)
  have hbyte : (UInt8.ofNat c.toNat).toNat < 0x41 := by
    rw [UInt8.toNat_ofNat']
    omega
  rw [eq_of_lowerByte_eq hbyte heq] at hb
  exact (mem_utf8_iff hascii).mp hb

/-- A marker with a character in front of the letters that the text lacks is not
found in any case. -/
theorem afterCaseless_eq_none {marker text : List Char} {c : Char} (hc : c ∈ marker)
    (hlow : c.toNat < 0x41) (h : c ∉ text) : afterCaseless marker text = none := by
  rw [afterCaseless, Option.map_eq_none_iff, Option.eq_none_iff_forall_ne_some]
  exact fun place hfind => h (mem_of_findCaseless hfind hc hlow)

/-! ## Text in front of the first place for a marker -/

/-- A marker is not found before its first character is. -/
theorem afterFirst_append {marker front : List Char} {c : Char} (hmarker : marker.head? = some c)
    (h : c ∉ front) (back : List Char) :
    afterFirst marker (front ++ back) = afterFirst marker back := by
  induction front with
  | nil => rfl
  | cons d cs ih =>
    rw [List.mem_cons, not_or] at h
    have hprefix : ¬ marker.isPrefixOf (d :: (cs ++ back)) = true := by
      intro hstarts
      obtain ⟨rest, hrest⟩ := List.isPrefixOf_iff_prefix.mp hstarts
      have hhead : (marker ++ rest).head? = some c := by
        rw [List.head?_append, hmarker, Option.some_or]
      rw [hrest] at hhead
      exact h.1 (Option.some.inj hhead).symm
    rw [List.cons_append, afterFirst, if_neg hprefix, ih h.2]

/-- A character is not found in front of its first occurrence. -/
theorem afterFirstChar_append {c : Char} {front : List Char} (h : c ∉ front)
    (back : List Char) : afterFirstChar c (front ++ back) = afterFirstChar c back := by
  have hdrop : (front ++ back).dropWhile (· != c) = back.dropWhile (· != c) := by
    apply List.dropWhile_append_of_pos
    intro d hd
    exact bne_iff_ne.mpr fun heq => h (heq ▸ hd)
  rw [afterFirstChar, afterFirstChar, hdrop]

/-- Places are counted from where the bytes stand. -/
theorem findBytesFrom_add (marker : List UInt8) (offset shift : Nat) (bytes : List UInt8) :
    findBytesFrom marker (shift + offset) bytes =
      (findBytesFrom marker offset bytes).map (shift + ·) := by
  induction bytes generalizing offset with
  | nil => rfl
  | cons b bytes ih =>
    rw [findBytesFrom, findBytesFrom]
    by_cases hstarts : startsCaseless marker (b :: bytes) = true
    · rw [if_pos hstarts, if_pos hstarts]
      rfl
    · rw [if_neg hstarts, if_neg hstarts, Nat.add_assoc, ih]

/-- A marker is not found before its first byte is, up to case. -/
theorem findBytesFrom_append {m : UInt8} {front : List UInt8}
    (h : ∀ b ∈ front, lowerByte m ≠ lowerByte b) (marker : List UInt8) (offset : Nat)
    (back : List UInt8) :
    findBytesFrom (m :: marker) offset (front ++ back) =
      findBytesFrom (m :: marker) (offset + front.length) back := by
  induction front generalizing offset with
  | nil => rfl
  | cons b front ih =>
    obtain ⟨hb, hfront⟩ := List.forall_mem_cons.mp h
    have hstarts : ¬ startsCaseless (m :: marker) (b :: (front ++ back)) = true := by
      rw [startsCaseless, Bool.and_eq_true, beq_iff_eq]
      exact fun hboth => hb hboth.1
    rw [List.cons_append, findBytesFrom, if_neg hstarts, ih hfront, List.length_cons]
    congr 1
    omega

/-- As many bytes as a text has are dropped with the text. -/
theorem dropBytes_append (front : List Char) (n : Nat) (back : List Char) :
    dropBytes ((utf8 front).length + n) (front ++ back) = dropBytes n back := by
  induction front with
  | nil => rw [utf8_nil, List.length_nil, Nat.zero_add, List.nil_append]
  | cons c cs ih =>
    have hpos := c.utf8Size_pos
    obtain ⟨k, hk⟩ : ∃ k, c.utf8Size = k + 1 := ⟨c.utf8Size - 1, by omega⟩
    have hlength : (utf8 (c :: cs)).length + n = k + ((utf8 cs).length + n) + 1 := by
      rw [length_utf8_cons]
      omega
    have hrest : k + ((utf8 cs).length + n) + 1 - c.utf8Size = (utf8 cs).length + n := by omega
    rw [hlength, List.cons_append, dropBytes, hrest, ih]

/-- A marker that begins with a character in front of the letters is not found before
that character is, in any case. -/
theorem afterCaseless_append {marker front : List Char} {c : Char}
    (hmarker : marker.head? = some c) (hlow : c.toNat < 0x41) (h : c ∉ front)
    (back : List Char) : afterCaseless marker (front ++ back) = afterCaseless marker back := by
  have hascii : c.toNat < 0x80 := Nat.lt_trans hlow (by decide)
  obtain ⟨rest, rfl⟩ := List.head?_eq_some_iff.mp hmarker
  have hbyte : (UInt8.ofNat c.toNat).toNat < 0x41 := by
    rw [UInt8.toNat_ofNat']
    omega
  have hfront : ∀ b ∈ utf8 front, lowerByte (UInt8.ofNat c.toNat) ≠ lowerByte b := by
    intro b hb heq
    rw [eq_of_lowerByte_eq hbyte heq] at hb
    exact h ((mem_utf8_iff hascii).mp hb)
  have hfind : findCaseless (c :: rest) (front ++ back) =
      (findCaseless (c :: rest) back).map ((utf8 front).length + ·) := by
    show findBytesFrom (utf8 (c :: rest)) 0 (utf8 (front ++ back)) =
      (findBytesFrom (utf8 (c :: rest)) 0 (utf8 back)).map ((utf8 front).length + ·)
    rw [utf8_append, utf8_cons, utf8EncodeChar_of_lt hascii, List.singleton_append,
      findBytesFrom_append hfront, Nat.zero_add, ← findBytesFrom_add, Nat.add_zero]
  rw [afterCaseless, hfind, Option.map_map, afterCaseless]
  congr 1
  funext offset
  rw [Function.comp_apply, Nat.add_assoc, dropBytes_append]

end PrintJob

/-
# The bytes of the first number

The first number of a text can be looked for in the bytes of its UTF-8 form: from the first byte on
that is a digit, or a point in front of a digit, and as far as there are digits and at most one
point (`numberSpan`). Digits and points are ASCII characters, and no byte of another character is
one of theirs (`IsByteTest`). So the bytes that are found are those of whole characters, whatever
stands around them (`IsFirstNumber.numberSpan_eq`), and these characters are the ones that
`firstNumber` reads.

That the number begins as early and goes on as far as it can is said of characters by
`IsFirstRun`. A run that begins in this way has a digit, so it is always read
(`firstNumber_reads_first_run`).
-/
import PrintJob.Proofs.FirstNumber
import PrintJob.Proofs.MarkerSearch

namespace PrintJob

/-! ## Searching in bytes -/

/-- Whether a byte is an ASCII digit. -/
def isDigitByte (b : UInt8) : Bool := 0x30 ≤ b && b ≤ 0x39

/-- Whether a byte is the ASCII point. -/
def isPointByte (b : UInt8) : Bool := b == 0x2E

/-- Whether a number begins with the first of some bytes. -/
def startsNumberByte : List UInt8 → Bool
  | [] => false
  | b :: bytes => isDigitByte b || (isPointByte b && bytes.head?.any isDigitByte)

/-- The first place at or after `offset` at which a number begins, in bytes that stand at that
offset. -/
def numberStart (offset : Nat) : List UInt8 → Option Nat
  | [] => none
  | b :: bytes =>
    if startsNumberByte (b :: bytes) then some offset else numberStart (offset + 1) bytes

/-- The place behind the digits at `offset`, and behind a point among or around them if there was
none before. -/
def numberEnd (seenPoint : Bool) (offset : Nat) : List UInt8 → Nat
  | [] => offset
  | b :: bytes =>
    if isDigitByte b then numberEnd seenPoint (offset + 1) bytes
    else if isPointByte b && !seenPoint then numberEnd true (offset + 1) bytes
    else offset

/-- Where the first number in some bytes begins and where it ends. -/
def numberSpan (bytes : List UInt8) : Option (Nat × Nat) :=
  (numberStart 0 bytes).map fun first => (first, numberEnd false first (bytes.drop first))

/-! ## Bytes of ASCII characters -/

/-- The test finds the bytes of the ASCII characters with a property that no other characters
have. -/
structure IsByteTest (test : UInt8 → Bool) (p : Char → Bool) : Prop where
  ascii : ∀ n < 0x80, test (UInt8.ofNat n) = p (Char.ofNat n)
  byte_lt : ∀ b, test b = true → b.toNat < 0x80
  char_lt : ∀ c, p c = true → c.toNat < 0x80

theorem isByteTest_digit : IsByteTest isDigitByte Char.isDigit where
  ascii := by decide +kernel
  byte_lt b h := by
    unfold isDigitByte at h
    rw [Bool.and_eq_true, decide_eq_true_eq, decide_eq_true_eq] at h
    have hle := UInt8.le_iff_toNat_le.mp h.2
    simp only [UInt8.reduceToNat] at hle
    omega
  char_lt c h := by
    have hvalue := digitValue_lt h
    have hzero : '0'.toNat = 48 := rfl
    rw [toNat_eq_of_isDigit h]
    omega

theorem isByteTest_point : IsByteTest isPointByte (· == '.') where
  ascii := by decide +kernel
  byte_lt b h := by
    rw [beq_iff_eq.mp h]
    decide
  char_lt c h := by
    rw [beq_iff_eq.mp h]
    decide

/-- Every character has a first byte. -/
theorem exists_utf8EncodeChar_cons (c : Char) :
    ∃ b bytes, String.utf8EncodeChar c = b :: bytes := by
  have hpos := c.utf8Size_pos
  rw [← String.length_utf8EncodeChar] at hpos
  exact List.exists_cons_of_length_pos hpos

namespace IsByteTest

variable {test : UInt8 → Bool} {p : Char → Bool}

/-- A character with the property is one byte, and the test finds it. -/
theorem exists_byte (h : IsByteTest test p) {c : Char} (hc : p c = true) :
    ∃ b, String.utf8EncodeChar c = [b] ∧ test b = true := by
  have hlt := h.char_lt c hc
  refine ⟨_, utf8EncodeChar_of_lt hlt, ?_⟩
  rw [h.ascii c.toNat hlt, Char.ofNat_toNat, hc]

/-- In a character without the property the test finds no byte. -/
theorem eq_false (h : IsByteTest test p) {c : Char} (hc : p c = false) {b : UInt8}
    (hb : b ∈ String.utf8EncodeChar c) : test b = false := by
  rw [← Bool.not_eq_true]
  intro htest
  have hlt := h.byte_lt b htest
  have hnat := toNat_eq_of_mem_utf8EncodeChar hb hlt
  have hascii := h.ascii b.toNat hlt
  rw [UInt8.ofNat_toNat, ← hnat, Char.ofNat_toNat, htest, hc] at hascii
  exact Bool.noConfusion hascii

/-- The first byte of a text tells whether its first character has the property. -/
theorem any_head? (h : IsByteTest test p) (cs : List Char) :
    (utf8 cs).head?.any test = cs.head?.any p := by
  cases cs with
  | nil => rfl
  | cons c cs =>
    rw [utf8_cons, List.head?_cons, Option.any_some]
    by_cases hc : p c = true
    · obtain ⟨b, hb, htest⟩ := h.exists_byte hc
      rw [hb, hc]
      exact htest
    · rw [Bool.not_eq_true] at hc
      obtain ⟨b, bytes, hb⟩ := exists_utf8EncodeChar_cons c
      rw [hb, hc]
      exact h.eq_false hc (hb ▸ List.mem_cons_self)

end IsByteTest

theorem stopsRun_iff_any_head? {p : Char → Bool} {cs : List Char} :
    StopsRun p cs ↔ cs.head?.any p = false := by
  cases cs with
  | nil => exact iff_of_true stopsRun_nil rfl
  | cons c cs => exact stopsRun_cons

/-- The first byte of a text tells whether its first character is a digit or a point. -/
theorem exists_utf8_cons (c : Char) (cs : List Char) :
    ∃ b bytes, utf8 (c :: cs) = b :: bytes ∧ isDigitByte b = c.isDigit ∧
      isPointByte b = (c == '.') := by
  have hdigit := isByteTest_digit.any_head? (c :: cs)
  have hpoint := isByteTest_point.any_head? (c :: cs)
  obtain ⟨b, bytes, hb⟩ := exists_utf8EncodeChar_cons c
  have hcons : utf8 (c :: cs) = b :: (bytes ++ utf8 cs) := by rw [utf8_cons, hb, List.cons_append]
  rw [hcons] at hdigit hpoint
  exact ⟨b, _, hcons, hdigit, hpoint⟩

theorem utf8_point (cs : List Char) : utf8 ('.' :: cs) = 0x2E :: utf8 cs := rfl

/-! ## Where the number begins -/

/-- The first bytes of a text tell whether a number begins there. -/
theorem startsNumberByte_utf8 (cs : List Char) :
    startsNumberByte (utf8 cs) = startsNumber cs := by
  cases cs with
  | nil => rfl
  | cons c cs =>
    rw [Bool.eq_iff_iff, startsNumber_cons_iff, stopsRun_iff_any_head?, Bool.not_eq_false]
    by_cases hpoint : c = '.'
    · subst hpoint
      rw [utf8_point, ← isByteTest_digit.any_head? cs]
      simp [startsNumberByte, isDigitByte, isPointByte]
    · obtain ⟨b, bytes, hcons, hb, hbpoint⟩ := exists_utf8_cons c cs
      rw [hcons, startsNumberByte, hb, hbpoint, beq_eq_false_iff_ne.mpr hpoint]
      simp [hpoint]

/-- Bytes that are neither digits nor points are passed by. -/
theorem numberStart_append {front : List UInt8}
    (h : ∀ b ∈ front, isDigitByte b = false ∧ isPointByte b = false) (offset : Nat)
    (back : List UInt8) :
    numberStart offset (front ++ back) = numberStart (offset + front.length) back := by
  induction front generalizing offset with
  | nil => rfl
  | cons b front ih =>
    obtain ⟨hb, hfront⟩ := List.forall_mem_cons.mp h
    have hstarts : ¬ startsNumberByte (b :: (front ++ back)) = true := by
      rw [startsNumberByte, hb.1, hb.2]
      exact Bool.false_ne_true
    rw [List.cons_append, numberStart, if_neg hstarts, ih hfront, List.length_cons]
    congr 1
    omega

/-- The search begins at the first byte if a number does. -/
theorem numberStart_of_startsNumber {cs : List Char} (h : startsNumber cs = true) (offset : Nat) :
    numberStart offset (utf8 cs) = some offset := by
  have hstarts := startsNumberByte_utf8 cs
  rw [h] at hstarts
  cases hbytes : utf8 cs with
  | nil =>
    rw [hbytes] at hstarts
    exact Bool.noConfusion hstarts
  | cons b bytes =>
    rw [hbytes] at hstarts
    exact if_pos hstarts

/-- A character with which no number begins is passed by with all its bytes. -/
theorem numberStart_cons {c : Char} {cs : List Char} (h : startsNumber (c :: cs) = false)
    (offset : Nat) :
    numberStart offset (utf8 (c :: cs)) =
      numberStart (offset + (String.utf8EncodeChar c).length) (utf8 cs) := by
  by_cases hpoint : c = '.'
  · subst hpoint
    have hstarts := startsNumberByte_utf8 ('.' :: cs)
    rw [h, utf8_point] at hstarts
    rw [utf8_point, numberStart, hstarts]
    rfl
  · have hdigit := (startsNumber_cons_eq_false_iff.mp h).1
    refine numberStart_append ?_ offset (utf8 cs)
    intro b hb
    exact ⟨isByteTest_digit.eq_false hdigit hb,
      isByteTest_point.eq_false (beq_eq_false_iff_ne.mpr hpoint) hb⟩

/-- What stands in front of the number is passed by with all its bytes. -/
theorem numberStart_of_inFront {front rest : List Char} (h : InFront front rest) (offset : Nat) :
    numberStart offset (utf8 (front ++ rest)) =
      numberStart (offset + (utf8 front).length) (utf8 rest) := by
  induction front generalizing offset with
  | nil => rfl
  | cons c front ih =>
    obtain ⟨hc, hfront⟩ := inFront_cons_iff.mp h
    rw [List.cons_append, numberStart_cons hc, ih hfront, utf8_cons, List.length_append,
      Nat.add_assoc]

/-! ## Where the number ends -/

/-- Digits are passed by with all their bytes. -/
theorem numberEnd_digits {ds : List Char} (h : ∀ c ∈ ds, c.isDigit = true) (seenPoint : Bool)
    (offset : Nat) (back : List UInt8) :
    numberEnd seenPoint offset (utf8 ds ++ back) =
      numberEnd seenPoint (offset + (utf8 ds).length) back := by
  induction ds generalizing offset with
  | nil => rfl
  | cons c ds ih =>
    obtain ⟨hc, hds⟩ := List.forall_mem_cons.mp h
    obtain ⟨b, hb, hdigit⟩ := isByteTest_digit.exists_byte hc
    have hlength : offset + (b :: utf8 ds).length = offset + 1 + (utf8 ds).length := by
      rw [List.length_cons]
      omega
    rw [utf8_cons, hb, List.singleton_append, List.cons_append, numberEnd, if_pos hdigit, ih hds,
      hlength]

theorem PlainNumber.isDigit_of_fraction (n : PlainNumber) {ds : List Char}
    (h : n.fraction = some ds) : ∀ c ∈ ds, c.isDigit = true := by
  have hdigits := n.isDigit_fraction
  rw [h] at hdigits
  exact hdigits

/-- The first point is passed by. -/
theorem numberEnd_point (offset : Nat) (cs : List Char) :
    numberEnd false offset (utf8 ('.' :: cs)) = numberEnd true (offset + 1) (utf8 cs) := rfl

/-- The search ends in front of a character that does not go on with the number. -/
theorem numberEnd_of_stopsRun {back : List Char} (h : StopsRun Char.isDigit back)
    {seenPoint : Bool} (hpoint : seenPoint = false → back.head? ≠ some '.') (offset : Nat) :
    numberEnd seenPoint offset (utf8 back) = offset := by
  cases back with
  | nil => rfl
  | cons c cs =>
    obtain ⟨b, bytes, hcons, hb, hbpoint⟩ := exists_utf8_cons c cs
    rw [hcons, numberEnd, hb, stopsRun_cons.mp h, hbpoint, if_neg Bool.false_ne_true]
    refine if_neg fun hgoes => ?_
    rw [Bool.and_eq_true, beq_iff_eq, Bool.not_eq_true'] at hgoes
    exact hpoint hgoes.2 (congrArg some hgoes.1)

/-- A plain number is passed by with all its bytes, and the search ends behind it. -/
theorem numberEnd_text {n : PlainNumber} {back : List Char} (h : EndsNumber n back)
    (offset : Nat) :
    numberEnd false offset (utf8 (n.text ++ back)) = offset + (utf8 n.text).length := by
  rw [PlainNumber.text, List.append_assoc, utf8_append, numberEnd_digits n.isDigit_whole,
    utf8_append n.whole, List.length_append, ← Nat.add_assoc]
  cases hfraction : n.fraction with
  | none => exact numberEnd_of_stopsRun h.no_digit (fun _ => h.no_point hfraction) _
  | some ds =>
    have hdigits := n.isDigit_of_fraction hfraction
    have hlength : ∀ k, k + (utf8 ('.' :: ds)).length = k + 1 + (utf8 ds).length := by
      intro k
      rw [utf8_point, List.length_cons]
      omega
    show numberEnd false _ (utf8 ('.' :: (ds ++ back))) = _ + (utf8 ('.' :: ds)).length
    rw [hlength, numberEnd_point, utf8_append, numberEnd_digits hdigits]
    exact numberEnd_of_stopsRun h.no_digit (fun hseen => Bool.noConfusion hseen) _

/-! ## The span of the first number -/

/-- **The bytes of the first number are those of its characters.** -/
theorem numberSpan_eq {front back : List Char} {n : PlainNumber}
    (hfront : InFront front (n.text ++ back)) (hback : EndsNumber n back) :
    numberSpan (utf8 (front ++ (n.text ++ back))) =
      some ((utf8 front).length, (utf8 (front ++ n.text)).length) := by
  have hdrop : (utf8 (front ++ (n.text ++ back))).drop (utf8 front).length =
      utf8 (n.text ++ back) := by
    rw [utf8_append, List.drop_left]
  rw [numberSpan, numberStart_of_inFront hfront,
    numberStart_of_startsNumber (startsNumber_text_append n back), Nat.zero_add, Option.map_some,
    hdrop, numberEnd_text hback, ← List.length_append, ← utf8_append]

/-- In bytes of a text without digits there is no number. -/
theorem numberSpan_eq_none {text : List Char} (h : ∀ c ∈ text, c.isDigit = false) :
    numberSpan (utf8 text) = none := by
  have hfront : InFront text [] := ⟨h, fun _ => stopsRun_nil⟩
  have hstart := numberStart_of_inFront hfront 0
  rw [List.append_nil] at hstart
  rw [numberSpan, hstart]
  rfl

/-! ## The first run -/

/-- The text begins with a digit, or with a point and a digit behind it. -/
inductive BeginsNumber : List Char → Prop
  | digit {c : Char} (cs : List Char) : c.isDigit = true → BeginsNumber (c :: cs)
  | point {c : Char} (cs : List Char) : c.isDigit = true → BeginsNumber ('.' :: c :: cs)

theorem startsNumber_iff_beginsNumber {cs : List Char} :
    startsNumber cs = true ↔ BeginsNumber cs := by
  constructor
  · intro h
    cases cs with
    | nil => cases h
    | cons c cs =>
      rcases startsNumber_cons_iff.mp h with hc | ⟨rfl, hcs⟩
      · exact .digit cs hc
      · cases cs with
        | nil => exact absurd stopsRun_nil hcs
        | cons d ds =>
          rw [stopsRun_cons, Bool.not_eq_false] at hcs
          exact .point ds hcs
  · intro h
    cases h with
    | digit cs hc => exact startsNumber_cons_iff.mpr (Or.inl hc)
    | point cs hc =>
      refine startsNumber_cons_iff.mpr (Or.inr ⟨rfl, ?_⟩)
      rw [stopsRun_cons, Bool.not_eq_false]
      exact hc

theorem BeginsNumber.exists_digit {cs : List Char} (h : BeginsNumber cs) :
    ∃ c ∈ cs, c.isDigit = true := by
  cases h with
  | digit cs hc => exact ⟨_, List.mem_cons_self, hc⟩
  | point cs hc => exact ⟨_, List.mem_cons_of_mem _ List.mem_cons_self, hc⟩

/-- Digits and at most one point. -/
structure IsNumberRun (cs : List Char) : Prop where
  digit_or_point : ∀ c ∈ cs, c.isDigit = true ∨ c = '.'
  count_point : cs.count '.' ≤ 1

/-- The token is the longest run of digits with at most one point at the first place of the text
at which a number begins. -/
structure IsFirstRun (text front token back : List Char) : Prop where
  text_eq : text = front ++ (token ++ back)
  begins : BeginsNumber (token ++ back)
  earliest : ∀ other rest, text = other ++ rest → BeginsNumber rest →
    front.length ≤ other.length
  isNumberRun : IsNumberRun token
  longest : ∀ longer rest, token ++ back = longer ++ rest → IsNumberRun longer →
    longer.length ≤ token.length

theorem count_point_of_digits {ds : List Char} (h : ∀ c ∈ ds, c.isDigit = true) :
    ds.count '.' = 0 := by
  refine List.count_eq_zero_of_not_mem fun hmem => ?_
  exact Bool.false_ne_true (h '.' hmem)

namespace PlainNumber

theorem count_point (n : PlainNumber) :
    n.text.count '.' = if n.fraction.isSome then 1 else 0 := by
  rw [text, List.count_append, count_point_of_digits n.isDigit_whole, Nat.zero_add]
  cases hfraction : n.fraction with
  | none => rfl
  | some ds =>
    show ('.' :: ds).count '.' = 1
    rw [List.count_cons_self, count_point_of_digits (n.isDigit_of_fraction hfraction)]

theorem isNumberRun_text (n : PlainNumber) : IsNumberRun n.text where
  digit_or_point c hc := by
    rcases List.mem_append.mp hc with hc | hc
    · exact Or.inl (n.isDigit_whole c hc)
    · cases hfraction : n.fraction with
      | none =>
        rw [hfraction] at hc
        cases hc
      | some ds =>
        rw [hfraction] at hc
        rcases List.mem_cons.mp hc with rfl | hc
        · exact Or.inr rfl
        · exact Or.inl (n.isDigit_of_fraction hfraction c hc)
  count_point := by
    rw [count_point]
    split
    · exact Nat.le_refl 1
    · exact Nat.zero_le 1

end PlainNumber

/-- No run of digits with at most one point goes beyond the end of the number. -/
theorem EndsNumber.length_le {n : PlainNumber} {back longer rest : List Char}
    (h : EndsNumber n back) (heq : n.text ++ back = longer ++ rest) (hrun : IsNumberRun longer) :
    longer.length ≤ n.text.length := by
  rcases List.append_eq_append_iff.mp heq with ⟨more, rfl, rfl⟩ | ⟨less, hless, -⟩
  · cases more with
    | nil => rw [List.append_nil]
    | cons c more =>
      exfalso
      have hmem : c ∈ n.text ++ c :: more := List.mem_append_right _ List.mem_cons_self
      rcases hrun.digit_or_point c hmem with hc | rfl
      · have hstop := stopsRun_cons.mp h.no_digit
        exact Bool.false_ne_true (hstop.symm.trans hc)
      -- a second point
      · have hcount := hrun.count_point
        rw [List.count_append, List.count_cons_self, n.count_point] at hcount
        cases hfraction : n.fraction with
        | none => exact h.no_point hfraction rfl
        | some ds =>
          rw [hfraction, Option.isSome_some, if_pos rfl] at hcount
          omega
  · rw [hless, List.length_append]
    omega

/-- Nothing in front of the number is a place at which one begins. -/
theorem InFront.length_le {front rest other back : List Char} (h : InFront front rest)
    (heq : front ++ rest = other ++ back) (hbegins : BeginsNumber back) :
    front.length ≤ other.length := by
  induction other generalizing front with
  | nil =>
    cases front with
    | nil => exact Nat.le_refl _
    | cons c front =>
      have hc := (inFront_cons_iff.mp h).1
      rw [← List.cons_append, heq, List.nil_append, startsNumber_iff_beginsNumber.mpr hbegins] at hc
      exact Bool.noConfusion hc
  | cons d other ih =>
    cases front with
    | nil => exact Nat.zero_le _
    | cons c front =>
      have htail := ih (inFront_cons_iff.mp h).2 (List.cons.inj heq).2
      rw [List.length_cons, List.length_cons]
      omega

/-- The first number is the first run. -/
theorem isFirstRun_text {front back : List Char} {n : PlainNumber}
    (hfront : InFront front (n.text ++ back)) (hback : EndsNumber n back) :
    IsFirstRun (front ++ (n.text ++ back)) front n.text back where
  text_eq := rfl
  begins := startsNumber_iff_beginsNumber.mp (startsNumber_text_append n back)
  earliest _ _ := hfront.length_le
  isNumberRun := n.isNumberRun_text
  longest _ _ := hback.length_le

/-- From a digit on at the latest, a number begins. -/
theorem exists_fromNumber {text : List Char} {c : Char} (hc : c ∈ text) (hdigit : c.isDigit = true) :
    ∃ rest, fromNumber text = some rest := by
  induction text with
  | nil => cases hc
  | cons d cs ih =>
    rw [fromNumber]
    by_cases hstarts : startsNumber (d :: cs) = true
    · rw [if_pos hstarts]
      exact ⟨_, rfl⟩
    · rw [if_neg hstarts]
      rcases List.mem_cons.mp hc with rfl | hc
      · exact absurd (startsNumber_cons_iff.mpr (Or.inl hdigit)) hstarts
      · exact ih hc

/-- Exactly the texts with a digit have a first number. -/
theorem exists_isFirstNumber_iff {text : List Char} :
    (∃ n, IsFirstNumber text n) ↔ ∃ c ∈ text, c.isDigit = true := by
  constructor
  · rintro ⟨n, front, back, rfl, -, -⟩
    have hbegins := startsNumber_iff_beginsNumber.mp (startsNumber_text_append n back)
    obtain ⟨c, hc, hdigit⟩ := hbegins.exists_digit
    exact ⟨c, List.mem_append_right front hc, hdigit⟩
  · rintro ⟨c, hc, hdigit⟩
    obtain ⟨rest, hrest⟩ := exists_fromNumber hc hdigit
    obtain ⟨hstarts, front, rfl, hfront⟩ := fromNumber_eq_some_iff.mp hrest
    obtain ⟨n, back, rfl, hback⟩ := exists_text_append_of_startsNumber hstarts
    exact ⟨n, front, back, rfl, hfront, hback⟩

theorem isSome_firstNumber_iff {text : List Char} :
    (firstNumber text).isSome = true ↔ ∃ c ∈ text, c.isDigit = true := by
  rw [← exists_isFirstNumber_iff, Option.isSome_iff_exists]
  constructor
  · rintro ⟨x, hx⟩
    obtain ⟨n, hn, -⟩ := firstNumber_eq_some_iff.mp hx
    exact ⟨n, hn⟩
  · rintro ⟨n, hn⟩
    exact ⟨_, firstNumber_eq_some_iff.mpr ⟨n, hn, rfl⟩⟩

/-- **The first number of a text is its first run of digits.** There is one exactly if the text has
an ASCII digit. It begins at the first place with a digit or with a point in front of a digit, and
is as long as digits with at most one point go; this is the token that is cut off, and it is always
read. Searched for in the bytes of the text the number is found in the same cases, and the two
places that are found there lie between characters: in front of the token and behind it. -/
theorem firstNumber_reads_first_run (text : List Char) :
    ((firstNumber text).isSome = true ↔ ∃ c ∈ text, c.isDigit = true) ∧
    (numberSpan (utf8 text)).isSome = (firstNumber text).isSome ∧
    ∀ first stop, numberSpan (utf8 text) = some (first, stop) →
      ∃ front token back x, IsFirstRun text front token back ∧
        first = (utf8 front).length ∧ stop = (utf8 (front ++ token)).length ∧
        fromNumber text = some (token ++ back) ∧ numberToken (token ++ back) = token ∧
        Binary64.read token = some x ∧ firstNumber text = some x := by
  refine ⟨isSome_firstNumber_iff, ?_⟩
  by_cases hdigit : ∃ c ∈ text, c.isDigit = true
  · obtain ⟨n, hn⟩ := exists_isFirstNumber_iff.mpr hdigit
    have hfirst : firstNumber text = some (n.nearest false) :=
      firstNumber_eq_some_iff.mpr ⟨n, hn, rfl⟩
    obtain ⟨front, back, rfl, hfront, hback⟩ := hn
    rw [numberSpan_eq hfront hback, hfirst]
    refine ⟨rfl, ?_⟩
    rintro _ _ ⟨⟩
    have hfrom : fromNumber (front ++ (n.text ++ back)) = some (n.text ++ back) :=
      fromNumber_eq_some_iff.mpr ⟨startsNumber_text_append n back, front, rfl, hfront⟩
    exact ⟨front, n.text, back, _, isFirstRun_text hfront hback, rfl, rfl, hfrom,
      numberToken_text_append hback, (isSigned_text n).read, rfl⟩
  · have hnone : firstNumber text = none := by
      rw [← Option.not_isSome_iff_eq_none, isSome_firstNumber_iff]
      exact hdigit
    have hall : ∀ c ∈ text, c.isDigit = false := fun c hc =>
      Bool.eq_false_iff.mpr fun h => hdigit ⟨c, hc, h⟩
    rw [numberSpan_eq_none hall, hnone]
    refine ⟨rfl, ?_⟩
    rintro _ _ ⟨⟩

/-- The number `.5` between characters of two and three bytes, with a point more on either side. -/
theorem firstNumber_between_wide_characters :
    let text := "\u00e4\u2026..5.\u20ac".toList
    numberSpan (utf8 text) = some (6, 8) ∧
      ∃ front token back x, IsFirstRun text front token back ∧
        6 = (utf8 front).length ∧ 8 = (utf8 (front ++ token)).length ∧
        fromNumber text = some (token ++ back) ∧ numberToken (token ++ back) = token ∧
        Binary64.read token = some x ∧ firstNumber text = some x := by
  intro text
  have hspan : numberSpan (utf8 text) = some (6, 8) := by decide +kernel
  obtain ⟨-, -, hrun⟩ := firstNumber_reads_first_run text
  exact ⟨hspan, hrun 6 8 hspan⟩

end PrintJob

/-
# The bytes of the tokens

The tokens of a line can also be cut out of its bytes. One goes through the characters with their
byte offsets (`charIndices`) and notes where each token begins and where it ends (`tokenSpans`): at
the end of the line, or one byte behind the last character that belongs to it. One byte is right
because a token only ends behind a letter, a number character or a closing parenthesis, and these
are ASCII. So the offsets are the sums of the bytes of gaps and tokens in front, in the one valid
cut of the line (`Cut.tokenSpans_line`): every span begins and ends between two characters and
holds the bytes of its token (`CutsOut`).
-/
import Mathlib.Data.List.Forall2
import Mathlib.Logic.ExistsUnique
import PrintJob.Proofs.LineCut
import PrintJob.Proofs.MarkerSearch

namespace PrintJob

/-! ## Spans -/

/-- The characters of a text that stands at a byte offset, each with its own offset. -/
def charIndices (offset : Nat) : List Char → List (Nat × Char)
  | [] => []
  | c :: cs => (offset, c) :: charIndices (offset + c.utf8Size) cs

/-- Where a token begins and where it ends in the bytes of its line. -/
structure TokenSpan where
  kind : TokenKind
  start : Nat
  stop : Nat
deriving DecidableEq

/-- Goes on through the first closing parenthesis. Gives the place behind it, or the length of the
line if there is none, and the characters that are left. -/
def closeComment (length : Nat) : List (Nat × Char) → Nat × List (Nat × Char)
  | [] => (length, [])
  | (index, c) :: rest =>
    if c = ')' then (index + 1, rest)
    else closeComment length rest

/-- Goes on through number characters. Gives the place behind the last of them, or `stop` if there
is none, and the characters that are left. -/
def closeWord (stop : Nat) : List (Nat × Char) → Nat × List (Nat × Char)
  | [] => (stop, [])
  | (index, c) :: rest =>
    if isNumberCharacter c then closeWord (index + 1) rest
    else (stop, (index, c) :: rest)

theorem length_closeComment_le (length : Nat) (cs : List (Nat × Char)) :
    (closeComment length cs).2.length ≤ cs.length := by
  induction cs with
  | nil => exact Nat.le_refl _
  | cons entry rest ih =>
    rw [closeComment]
    split
    · exact Nat.le_succ _
    · exact Nat.le_succ_of_le ih

theorem length_closeWord_le (stop : Nat) (cs : List (Nat × Char)) :
    (closeWord stop cs).2.length ≤ cs.length := by
  induction cs generalizing stop with
  | nil => exact Nat.le_refl _
  | cons entry rest ih =>
    rw [closeWord]
    split
    · exact Nat.le_succ_of_le (ih _)
    · exact Nat.le_refl _

/-- The spans of the tokens in the rest of a line of some length. -/
def spansFrom (length : Nat) : List (Nat × Char) → List TokenSpan
  | [] => []
  | (start, c) :: rest =>
    if c = ';' then
      [⟨.comment, start, length⟩]
    else if c = '(' then
      ⟨.comment, start, (closeComment length rest).1⟩ ::
        spansFrom length (closeComment length rest).2
    else if c.isAlpha then
      ⟨wordKind c, start, (closeWord (start + 1) rest).1⟩ ::
        spansFrom length (closeWord (start + 1) rest).2
    else
      spansFrom length rest
termination_by cs => cs.length
decreasing_by
  · exact Nat.lt_succ_of_le (length_closeComment_le length rest)
  · exact Nat.lt_succ_of_le (length_closeWord_le _ rest)
  · exact Nat.lt_succ_self _

/-- The spans of the tokens of a line. -/
def tokenSpans (line : List Char) : List TokenSpan :=
  spansFrom (utf8 line).length (charIndices 0 line)

/-! ## ASCII characters -/

/-- Behind an ASCII character the text goes on one byte further. -/
theorem charIndices_cons {c : Char} (h : c.toNat < 128) (offset : Nat) (cs : List Char) :
    charIndices offset (c :: cs) = (offset, c) :: charIndices (offset + 1) cs := by
  rw [charIndices, utf8Size_of_lt h]

theorem add_length_utf8_cons {c : Char} (h : c.toNat < 128) (offset : Nat) (cs : List Char) :
    offset + (utf8 (c :: cs)).length = offset + 1 + (utf8 cs).length := by
  rw [length_utf8_cons, utf8Size_of_lt h, Nat.add_assoc]

/-! ## Where a token ends -/

/-- The place behind a comment is the end of its characters. -/
theorem closeComment_charIndices (offset : Nat) (cs : List Char) :
    closeComment (offset + (utf8 cs).length) (charIndices offset cs) =
      (offset + (utf8 (cutComment cs).1).length,
        charIndices (offset + (utf8 (cutComment cs).1).length) (cutComment cs).2) := by
  induction cs generalizing offset with
  | nil => rfl
  | cons c cs ih =>
    rw [charIndices, closeComment, cutComment]
    by_cases hclose : c = ')'
    · subst hclose
      rfl
    -- inside a comment there may be characters of several bytes
    · rw [if_neg hclose, if_neg hclose, length_utf8_cons, ← Nat.add_assoc, ih]
      show _ = (offset + (utf8 (c :: (cutComment cs).1)).length,
        charIndices (offset + (utf8 (c :: (cutComment cs).1)).length) (cutComment cs).2)
      rw [length_utf8_cons, ← Nat.add_assoc]

/-- The place behind a word is the end of its characters. -/
theorem closeWord_charIndices (offset : Nat) (cs : List Char) :
    closeWord offset (charIndices offset cs) =
      (offset + (utf8 (cs.takeWhile isNumberCharacter)).length,
        charIndices (offset + (utf8 (cs.takeWhile isNumberCharacter)).length)
          (cs.dropWhile isNumberCharacter)) := by
  induction cs generalizing offset with
  | nil => rfl
  | cons c cs ih =>
    by_cases hc : isNumberCharacter c = true
    · have hascii := toNat_lt_of_isNumberCharacter hc
      rw [charIndices_cons hascii, closeWord, if_pos hc, ih, List.takeWhile_cons_of_pos hc,
        List.dropWhile_cons_of_pos hc, add_length_utf8_cons hascii]
    · rw [List.takeWhile_cons_of_neg hc, List.dropWhile_cons_of_neg hc, charIndices, closeWord,
        if_neg hc]
      rfl

/-! ## One step of the search -/

theorem spansFrom_nil (length : Nat) : spansFrom length [] = [] := by rw [spansFrom]

theorem spansFrom_semicolon (length offset : Nat) (cs : List Char) :
    spansFrom length (charIndices offset (';' :: cs)) = [⟨.comment, offset, length⟩] := by
  rw [charIndices, spansFrom, if_pos rfl]

theorem spansFrom_open (offset : Nat) (cs : List Char) :
    spansFrom (offset + (utf8 ('(' :: cs)).length) (charIndices offset ('(' :: cs)) =
      ⟨.comment, offset, offset + (utf8 ('(' :: (cutComment cs).1)).length⟩ ::
        spansFrom (offset + (utf8 ('(' :: cs)).length)
          (charIndices (offset + (utf8 ('(' :: (cutComment cs).1)).length)
            (cutComment cs).2) := by
  have hascii : '('.toNat < 128 := by decide
  rw [charIndices_cons hascii, spansFrom, if_neg (by decide), if_pos rfl,
    add_length_utf8_cons hascii, add_length_utf8_cons hascii, closeComment_charIndices]

theorem spansFrom_letter {c : Char} (h : c.isAlpha = true) (length offset : Nat)
    (cs : List Char) :
    spansFrom length (charIndices offset (c :: cs)) =
      ⟨wordKind c, offset,
          offset + (utf8 (c :: cs.takeWhile isNumberCharacter)).length⟩ ::
        spansFrom length
          (charIndices (offset + (utf8 (c :: cs.takeWhile isNumberCharacter)).length)
            (cs.dropWhile isNumberCharacter)) := by
  have hascii := toNat_lt_of_isAlpha h
  rw [charIndices_cons hascii, spansFrom, if_neg (ne_of_isAlpha h).1, if_neg (ne_of_isAlpha h).2,
    if_pos h, add_length_utf8_cons hascii, closeWord_charIndices]

/-! ## The spans of a valid cut -/

/-- The spans of the tokens of a cut that stands at a byte offset. -/
def Cut.spans (offset : Nat) : Cut → List TokenSpan
  | .ending _ => []
  | .piece gap token rest =>
    let start := offset + (utf8 gap).length
    let stop := start + (utf8 token.text).length
    ⟨token.kind, start, stop⟩ :: rest.spans stop

/-- A gap is passed by with all its bytes. -/
theorem spansFrom_gap {gap : List Char} (h : IsGap gap) (length offset : Nat) (rest : List Char) :
    spansFrom length (charIndices offset (gap ++ rest)) =
      spansFrom length (charIndices (offset + (utf8 gap).length) rest) := by
  induction gap generalizing offset with
  | nil => rfl
  | cons c gap ih =>
    obtain ⟨hc, hgap⟩ := List.forall_mem_cons.mp h
    simp only [BeginsToken, not_or] at hc
    rw [List.cons_append, charIndices, spansFrom, if_neg hc.2.1, if_neg hc.2.2, if_neg hc.1,
      ih hgap, length_utf8_cons, Nat.add_assoc]

/-- A complete token has the first span of the line that begins with it, and the span has as many
bytes as the token. -/
theorem spansFrom_isToken {t : Token} {rest : List Char} (h : IsToken t rest) (offset : Nat) :
    spansFrom (offset + (utf8 (t.text ++ rest)).length) (charIndices offset (t.text ++ rest)) =
      ⟨t.kind, offset, offset + (utf8 t.text).length⟩ ::
        spansFrom (offset + (utf8 (t.text ++ rest)).length)
          (charIndices (offset + (utf8 t.text).length) rest) := by
  cases h with
  | semicolon text => rw [List.append_nil, spansFrom_semicolon, charIndices, spansFrom_nil]
  | @closed inside rest h =>
    have hcut : cutComment (inside ++ [')'] ++ rest) = (inside ++ [')'], rest) := by
      rw [List.append_assoc, List.singleton_append, cutComment_closed h]
    rw [List.cons_append, spansFrom_open, hcut]
  | @unclosed inside h => rw [List.append_nil, spansFrom_open, cutComment_unclosed h]
  | @word letter run rest hletter hrun hrest =>
    rw [List.cons_append, spansFrom_letter hletter, takeWhile_run hrun hrest,
      dropWhile_run hrun hrest, wordKind_of_isAlpha hletter]

/-- **A valid cut has the spans of its line.** -/
theorem Cut.spansFrom_line {cut : Cut} (h : cut.IsValid) (offset : Nat) :
    spansFrom (offset + (utf8 cut.line).length) (charIndices offset cut.line) =
      cut.spans offset := by
  induction cut generalizing offset with
  | ending gap =>
    have hgap := spansFrom_gap h (offset + (utf8 gap).length) offset []
    rw [List.append_nil, charIndices, spansFrom_nil] at hgap
    exact hgap
  | piece gap token rest ih =>
    obtain ⟨hgap, htoken, hrest⟩ := h
    rw [Cut.line, spansFrom_gap hgap, utf8_append gap, List.length_append, ← Nat.add_assoc,
      spansFrom_isToken htoken, utf8_append, List.length_append, ← Nat.add_assoc, ih hrest]
    rfl

theorem Cut.tokenSpans_line {cut : Cut} (h : cut.IsValid) : tokenSpans cut.line = cut.spans 0 := by
  rw [tokenSpans, ← Cut.spansFrom_line h, Nat.zero_add]

/-! ## What a span cuts out -/

/-- The span begins and ends between two characters of the line, and the bytes in it are those of
the token. -/
structure CutsOut (line : List Char) (span : TokenSpan) (t : Token) : Prop where
  kind_eq : span.kind = t.kind
  isBoundary_start : IsBoundary line span.start
  isBoundary_stop : IsBoundary line span.stop
  bytes_eq : (utf8 line).extract span.start span.stop = utf8 t.text

theorem cutsOut_append (front : List Char) (t : Token) (back : List Char) :
    CutsOut (front ++ (t.text ++ back))
      ⟨t.kind, (utf8 front).length, (utf8 front).length + (utf8 t.text).length⟩ t where
  kind_eq := rfl
  isBoundary_start := isBoundary_append front (t.text ++ back)
  isBoundary_stop := by
    have hend := isBoundary_append (front ++ t.text) back
    rw [utf8_append, List.length_append, List.append_assoc] at hend
    exact hend
  bytes_eq := by
    rw [List.extract_eq_take_drop, Nat.add_sub_cancel_left, utf8_append, utf8_append,
      List.drop_left, List.take_left]

/-- The spans of a cut cut out its tokens, whatever stands in front. -/
theorem Cut.forall₂_cutsOut (front : List Char) (cut : Cut) :
    List.Forall₂ (CutsOut (front ++ cut.line)) (cut.spans (utf8 front).length) cut.tokens := by
  induction cut generalizing front with
  | ending gap => exact .nil
  | piece gap token rest ih =>
    have hfirst := cutsOut_append (front ++ gap) token rest.line
    have hrest := ih (front ++ gap ++ token.text)
    rw [utf8_append, utf8_append, List.length_append, List.length_append] at hrest
    rw [utf8_append, List.length_append] at hfirst
    simp only [List.append_assoc] at hfirst hrest
    exact .cons hfirst hrest

/-! ## The main statement -/

/-- **A line has exactly one valid cut, and its tokens are those of the line.** The spans of the
cut are found in the bytes of the line, and each of them cuts out its token between two
characters. -/
theorem existsUnique_cut_and_tokens (line : List Char) :
    (∃! cut : Cut, cut.IsValid ∧ cut.line = line) ∧
      (∀ ts, (∃ cut : Cut, cut.IsValid ∧ cut.line = line ∧ cut.tokens = ts) ↔
        ts = tokens line) ∧
      (∀ spans, (∃ cut : Cut, cut.IsValid ∧ cut.line = line ∧ cut.spans 0 = spans) ↔
        spans = tokenSpans line) ∧
      List.Forall₂ (CutsOut line) (tokenSpans line) (tokens line) := by
  obtain ⟨cut, hvalid, rfl⟩ := exists_cut line
  refine ⟨⟨cut, ⟨hvalid, rfl⟩, ?_⟩, fun ts => ⟨?_, ?_⟩, fun spans => ⟨?_, ?_⟩, ?_⟩
  · rintro other ⟨hother, hline⟩
    exact Cut.eq_of_line_eq hother hvalid hline
  · rintro ⟨other, hother, hline, rfl⟩
    rw [← hline, Cut.tokens_line hother]
  · rintro rfl
    exact ⟨cut, hvalid, rfl, (Cut.tokens_line hvalid).symm⟩
  · rintro ⟨other, hother, hline, rfl⟩
    rw [← hline, Cut.tokenSpans_line hother]
  · rintro rfl
    exact ⟨cut, hvalid, rfl, (Cut.tokenSpans_line hvalid).symm⟩
  · rw [Cut.tokenSpans_line hvalid, Cut.tokens_line hvalid]
    exact cut.forall₂_cutsOut []

end PrintJob

/-
# What a comment says

A line carries the text of its first comment, on its own or behind a command. The text that it
carries is what the comment says: what stands behind the semicolon, or between the parentheses
(`Says`). There is one exception. Of a parenthesis that is never closed the delimiter is kept, so
the text of such a comment is the whole token (`Line.carried_says_iff`).
-/
import PrintJob.Line
import PrintJob.Proofs.LineCut

namespace PrintJob

/-- The comment that a line carries, on its own or behind a command. -/
def Line.carried : Line → Option (List Char)
  | .command words => words.comment
  | .comment said => some said
  | .empty => none

/-- The token is the first comment of the line. -/
def IsFirstComment (line : List Char) (t : Token) : Prop :=
  ∃ cut : Cut, cut.IsValid ∧ cut.line = line ∧ ∃ before after,
    cut.tokens = before ++ t :: after ∧ t.kind = .comment ∧
      ∀ earlier ∈ before, earlier.kind ≠ .comment

/-- What the text of a comment says without its delimiters. -/
inductive Says : List Char → List Char → Prop
  | semicolon (said : List Char) : Says (';' :: said) said
  | closed {said : List Char} (h : ')' ∉ said) : Says ('(' :: (said ++ [')'])) said
  | unclosed {said : List Char} (h : ')' ∉ said) : Says ('(' :: said) said

/-- The text is a parenthesis that is never closed. -/
def IsUnclosed (text : List Char) : Prop := ∃ said, ')' ∉ said ∧ text = '(' :: said

/-! ## The first comment -/

theorem isFirstComment_iff {line : List Char} {t : Token} :
    IsFirstComment line t ↔ (tokens line).find? (fun t => t.kind == .comment) = some t := by
  rw [List.find?_eq_some_iff_append]
  constructor
  · rintro ⟨cut, hvalid, rfl, before, after, htokens, hkind, hbefore⟩
    rw [Cut.tokens_line hvalid]
    refine ⟨by simp [hkind], before, after, htokens, ?_⟩
    intro earlier hearlier
    simpa using hbefore earlier hearlier
  · rintro ⟨hkind, before, after, htokens, hbefore⟩
    obtain ⟨cut, hvalid, rfl⟩ := exists_cut line
    rw [Cut.tokens_line hvalid] at htokens
    refine ⟨cut, hvalid, rfl, before, after, htokens, eq_of_beq hkind, ?_⟩
    intro earlier hearlier
    simpa using hbefore earlier hearlier

/-- Whatever else a line has, it carries its first comment. -/
theorem carried_parse (line : List Char) :
    (Line.parse line).carried = firstComment (tokens line) := by
  rw [Line.parse, Line.ofTokens]
  split
  · rfl
  · cases h : firstComment (tokens line) with
    | none => rfl
    | some text => rfl

/-! ## Delimiters -/

/-- A comment to the end of the line, or one that is closed, loses its delimiters. -/
theorem says_commentText {t : Token} {rest : List Char} (ht : IsToken t rest)
    (hkind : t.kind = .comment) (h : ¬ IsUnclosed t.text) : Says t.text (commentText t.text) := by
  cases ht with
  | semicolon text => exact .semicolon text
  | @closed inside rest hinside =>
    have htext : commentText ('(' :: (inside ++ [')'])) = inside := by
      rw [commentText, if_pos (List.getLast?_concat), List.dropLast_concat]
    rw [htext]
    exact .closed hinside
  | unclosed hinside => exact absurd ⟨_, hinside, rfl⟩ h
  | word hletter _ _ =>
    split at hkind <;> cases hkind

/-- A parenthesis that is never closed stays as it is. -/
theorem commentText_of_isUnclosed {text : List Char} (h : IsUnclosed text) :
    commentText text = text := by
  obtain ⟨said, hsaid, rfl⟩ := h
  have hlast : said.getLast? ≠ some ')' := fun hlast => hsaid (List.mem_of_getLast? hlast)
  rw [commentText, if_neg hlast]

/-- What a comment says is shorter than its text. -/
theorem Says.length_lt {text said : List Char} (h : Says text said) :
    said.length < text.length := by
  cases h with
  | semicolon _ => exact Nat.lt_succ_self _
  | closed _ =>
    rw [List.length_cons, List.length_append]
    omega
  | unclosed _ => exact Nat.lt_succ_self _

/-- **Delimiters are removed from all comments but unclosed parentheses.** -/
theorem says_commentText_iff {t : Token} {rest : List Char} (ht : IsToken t rest)
    (hkind : t.kind = .comment) : Says t.text (commentText t.text) ↔ ¬ IsUnclosed t.text := by
  constructor
  · intro hsays hunclosed
    rw [commentText_of_isUnclosed hunclosed] at hsays
    exact Nat.lt_irrefl _ hsays.length_lt
  · exact says_commentText ht hkind

/-! ## Lines -/

/-- **A line carries what its first comment says, unless that is an unclosed parenthesis.** Without
a comment it carries nothing. The text that it carries is the first comment without its delimiters
exactly if this is not a parenthesis that is never closed; of such a one it is the whole token. -/
theorem Line.carried_says_iff (line : List Char) :
    ((∀ t, ¬ IsFirstComment line t) → (Line.parse line).carried = none) ∧
      ∀ t, IsFirstComment line t → ∃ text, (Line.parse line).carried = some text ∧
        (Says t.text text ↔ ¬ IsUnclosed t.text) ∧ (IsUnclosed t.text → text = t.text) := by
  rw [carried_parse, firstComment]
  constructor
  · intro hnone
    cases hfind : (tokens line).find? (fun t => t.kind == .comment) with
    | none => rfl
    | some t => exact absurd (isFirstComment_iff.mpr hfind) (hnone t)
  · intro t ht
    have hfind := isFirstComment_iff.mp ht
    have hkind : t.kind = .comment := eq_of_beq (List.find?_eq_some_iff_append.mp hfind).1
    obtain ⟨-, rest, -, htoken⟩ := exists_place_of_mem_tokens (List.mem_of_find?_eq_some hfind)
    exact ⟨commentText t.text, by rw [hfind]; rfl, says_commentText_iff htoken hkind,
      commentText_of_isUnclosed⟩

/-- A line without a comment, one with a closed parenthesis in front of a semicolon, and one with
a semicolon in a parenthesis that is never closed. -/
theorem Line.carried_of_three_lines :
    let bare := "G1 X1".toList
    let closed := "G1(a)X1;b".toList
    let unclosed := "M117 (b;c".toList
    (∀ t, ¬ IsFirstComment bare t) ∧ (Line.parse bare).carried = none ∧
      IsFirstComment closed ⟨.comment, "(a)".toList⟩ ∧
      (∃ text, (Line.parse closed).carried = some text ∧ Says "(a)".toList text) ∧
      IsFirstComment unclosed ⟨.comment, "(b;c".toList⟩ ∧ IsUnclosed "(b;c".toList ∧
      (Line.parse unclosed).carried = some "(b;c".toList := by
  intro bare closed unclosed
  have hbare : ∀ t, ¬ IsFirstComment bare t := by
    intro t ht
    have hnone : (tokens bare).find? (fun t => t.kind == .comment) = none := by decide +kernel
    rw [isFirstComment_iff, hnone] at ht
    cases ht
  have hclosed : IsFirstComment closed ⟨.comment, "(a)".toList⟩ :=
    isFirstComment_iff.mpr (by decide +kernel)
  have hunclosed : IsFirstComment unclosed ⟨.comment, "(b;c".toList⟩ :=
    isFirstComment_iff.mpr (by decide +kernel)
  have hshut : ¬ IsUnclosed "(a)".toList := by
    rintro ⟨said, hsaid, heq⟩
    exact hsaid ((List.cons.inj heq).2 ▸ by decide)
  have hopen : IsUnclosed "(b;c".toList := ⟨"b;c".toList, by decide, rfl⟩
  obtain ⟨text, htext, hsays, -⟩ := (Line.carried_says_iff closed).2 _ hclosed
  obtain ⟨kept, hkept, -, hwhole⟩ := (Line.carried_says_iff unclosed).2 _ hunclosed
  rw [hwhole hopen] at hkept
  exact ⟨hbare, (Line.carried_says_iff bare).1 hbare, hclosed, ⟨text, htext, hsays.mpr hshut⟩,
    hunclosed, hopen, hkept⟩

/-- A parenthesis that is never closed: the line carries its delimiter, and what the comment says
is what stands behind. -/
theorem Line.carried_unclosed_parenthesis :
    let line := "(never closed".toList
    IsFirstComment line ⟨.comment, line⟩ ∧ (Line.parse line).carried = some line ∧
      Says line "never closed".toList ∧ ¬ Says line line := by
  intro line
  exact ⟨isFirstComment_iff.mpr (by decide +kernel), by decide +kernel, .unclosed (by decide),
    fun h => Nat.lt_irrefl _ h.length_lt⟩

end PrintJob

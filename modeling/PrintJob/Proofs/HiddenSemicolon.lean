/-
# Semicolons inside parentheses

Layer marks are looked for behind the first semicolon of a line, wherever it stands. Most often
that semicolon opens a comment, and what stands behind it is the text of this comment. But inside
a comment in parentheses it opens none: then the text that is looked at begins within the
parentheses, and no comment of the line has it. The two cases are those of `semicolon_cases`, and
they tell exactly where layer marks are found in a comment that a semicolon opens
(`commentOf_is_comment_iff`).
-/
import PrintJob.Proofs.CodeEdit
import PrintJob.Proofs.LongerLine

namespace PrintJob

/-- A comment in parentheses has a semicolon inside. -/
def HidesSemicolon (line : List Char) : Prop :=
  ∃ inside, ⟨.comment, '(' :: inside⟩ ∈ tokens line ∧ ';' ∈ inside

/-- The text that layer marks are looked for in is that of a comment which a semicolon opens. -/
def MarksInComment (line : List Char) : Prop :=
  ∃ text, ⟨.comment, ';' :: text⟩ ∈ tokens line ∧ commentOf line = some text

/-! ## Tokens as parts of their line -/

theorem text_infix_of_mem_tokens {line : List Char} {t : Token} (h : t ∈ tokens line) :
    t.text <:+: line := by
  obtain ⟨front, rest, rfl, -⟩ := exists_place_of_mem_tokens h
  exact ⟨front, rest, List.append_assoc front t.text rest⟩

theorem not_mem_text {line : List Char} {t : Token} (ht : t ∈ tokens line) {c : Char}
    (h : c ∉ line) : c ∉ t.text :=
  fun hc => h ((text_infix_of_mem_tokens ht).subset hc)

/-! ## The first semicolon -/

/-- Inside parentheses the first semicolon belongs to their comment. -/
theorem mem_cutComment_cons {c : Char} (h : c ≠ ')') (cs : List Char) :
    c ∈ (cutComment (c :: cs)).1 := by
  rw [cutComment, if_neg h]
  exact List.mem_cons_self

/-- **The first semicolon of a line opens a comment, or a comment in parentheses hides it.** In
the second case all comments that a semicolon opens begin further behind. -/
theorem semicolon_cases {front : List Char} (hfront : ';' ∉ front) (text : List Char) :
    (¬ HidesSemicolon (front ++ ';' :: text) ∧
        tokens (front ++ ';' :: text) = tokens front ++ [⟨.comment, ';' :: text⟩]) ∨
      (HidesSemicolon (front ++ ';' :: text) ∧
        ∀ own, ⟨.comment, ';' :: own⟩ ∈ tokens (front ++ ';' :: text) →
          own.length < text.length) := by
  have hstop : StopsRun isNumberCharacter (';' :: text) := stopsRun_cons.mpr rfl
  cases lineState front with
  | between hstate =>
    have htokens : tokens (front ++ ';' :: text) = tokens front ++ [⟨.comment, ';' :: text⟩] := by
      rw [hstate _ hstop, tokens_semicolon]
    refine Or.inl ⟨?_, htokens⟩
    rintro ⟨inside, hmem, hinside⟩
    rw [htokens, List.mem_append, List.mem_singleton] at hmem
    rcases hmem with hmem | heq
    · exact not_mem_text hmem hfront (List.mem_cons_of_mem _ hinside)
    · cases heq
  | inParenthesis ts inside _ hstate =>
    have hbefore := hstate [] stopsRun_nil
    rw [List.append_nil] at hbefore
    rw [HidesSemicolon, hstate _ hstop]
    refine Or.inr ⟨⟨_, List.mem_append_right ts List.mem_cons_self,
      List.mem_append_right inside (mem_cutComment_cons (by decide) text)⟩, ?_⟩
    intro own hown
    rw [List.mem_append, List.mem_cons] at hown
    rcases hown with hmem | heq | hmem
    · have hfrontMem : (⟨.comment, ';' :: own⟩ : Token) ∈ tokens front := by
        rw [hbefore]
        exact List.mem_append_left _ hmem
      exact absurd List.mem_cons_self (not_mem_text hfrontMem hfront)
    · cases heq
    · -- what is left behind the parentheses is shorter than the text behind the semicolon
      have hcut : (cutComment (';' :: text)).2 = (cutComment text).2 := rfl
      rw [hcut] at hmem
      have hinfix := (text_infix_of_mem_tokens hmem).length_le
      have hle := length_cutComment_le text
      rw [List.length_cons] at hinfix
      omega
  | inLineComment ts own hstate =>
    have hbefore := hstate [] stopsRun_nil
    rw [List.append_nil] at hbefore
    have hmem : (⟨.comment, ';' :: (own ++ [])⟩ : Token) ∈ tokens front := by
      rw [hbefore]
      exact List.mem_append_right ts List.mem_cons_self
    exact absurd List.mem_cons_self (not_mem_text hmem hfront)

/-! ## Where layer marks are looked for -/

/-- Without a semicolon there is neither a text to look in nor a comment that one opens. -/
theorem commentOf_eq_none {line : List Char} (h : ';' ∉ line) : commentOf line = none :=
  afterFirstChar_eq_none h

theorem not_hidesSemicolon {line : List Char} (h : ';' ∉ line) : ¬ HidesSemicolon line := by
  rintro ⟨inside, hmem, hinside⟩
  exact not_mem_text hmem h (List.mem_cons_of_mem _ hinside)

/-- **What stands behind the first semicolon is the text of the comment that a semicolon opens**,
exactly if no semicolon is hidden in parentheses. -/
theorem commentOf_eq_some_iff (line : List Char) :
    (∀ text, commentOf line = some text ↔ ⟨.comment, ';' :: text⟩ ∈ tokens line) ↔
      ¬ HidesSemicolon line := by
  by_cases hmem : ';' ∈ line
  · obtain ⟨front, text, rfl, hfront⟩ := List.eq_append_cons_of_mem hmem
    rw [commentOf_code hfront]
    rcases semicolon_cases hfront text with ⟨hshown, htokens⟩ | ⟨hhidden, hshorter⟩
    · refine iff_of_true ?_ hshown
      intro own
      rw [htokens, List.mem_append, List.mem_singleton]
      constructor
      · intro h
        rw [Option.some.inj h]
        exact Or.inr rfl
      · rintro (hown | heq)
        · exact absurd List.mem_cons_self (not_mem_text hown hfront)
        · cases heq
          rfl
    · refine iff_of_false ?_ (not_not_intro hhidden)
      intro h
      exact Nat.lt_irrefl _ (hshorter text ((h text).mp rfl))
  · refine iff_of_true ?_ (not_hidesSemicolon hmem)
    intro text
    rw [commentOf_eq_none hmem]
    refine iff_of_false (Option.some_ne_none text).symm ?_
    intro htoken
    exact not_mem_text htoken hmem List.mem_cons_self

/-- A line with a layer mark has a text behind its first semicolon. -/
theorem exists_commentOf {line : List Char}
    (h : hasLayerTag line = true ∨ hasLayerMention line = true) :
    ∃ text, commentOf line = some text := by
  have hsome : ∀ p : List Char → Bool, (commentOf line).any p = true →
      ∃ text, commentOf line = some text := by
    intro p hp
    obtain ⟨text, htext, -⟩ := (Option.any_eq_true _ _).mp hp
    exact ⟨text, htext⟩
  rcases h with htag | hmention
  · exact hsome startsWithTag htag
  · exact hsome mentionsLayer hmention

/-- A semicolon that is hidden in parentheses keeps layer marks from being looked for in a
comment that a semicolon opens. -/
theorem not_marksInComment {line : List Char} (h : HidesSemicolon line) :
    ¬ MarksInComment line := by
  rintro ⟨text, htoken, htext⟩
  obtain ⟨inside, hmem, hinside⟩ := h
  have hsemicolon : ';' ∈ line := by
    by_contra hnone
    exact not_mem_text hmem hnone (List.mem_cons_of_mem _ hinside)
  obtain ⟨front, behind, rfl, hfront⟩ := List.eq_append_cons_of_mem hsemicolon
  rw [commentOf_code hfront] at htext
  obtain rfl := Option.some.inj htext
  rcases semicolon_cases hfront behind with ⟨hshown, -⟩ | ⟨-, hshorter⟩
  · exact hshown ⟨inside, hmem, hinside⟩
  · exact Nat.lt_irrefl _ (hshorter behind htoken)

/-- **Layer marks are found in a comment that a semicolon opens, unless a semicolon is hidden in
parentheses.** The text that is looked at is that of such a comment exactly if no comment in
parentheses has a semicolon inside; and of the lines with a layer mark exactly those without a
hidden semicolon have the mark in such a comment. -/
theorem commentOf_is_comment_iff (line : List Char) :
    ((∀ text, commentOf line = some text ↔ ⟨.comment, ';' :: text⟩ ∈ tokens line) ↔
        ¬ HidesSemicolon line) ∧
      ((hasLayerTag line = true ∨ hasLayerMention line = true → MarksInComment line) ↔
        (hasLayerTag line = true ∨ hasLayerMention line = true → ¬ HidesSemicolon line)) := by
  refine ⟨commentOf_eq_some_iff line, ?_, ?_⟩
  · intro hmarks hmark hhidden
    exact not_marksInComment hhidden (hmarks hmark)
  · intro hshown hmark
    obtain ⟨text, htext⟩ := exists_commentOf hmark
    have htoken := ((commentOf_eq_some_iff line).mpr (hshown hmark) text).mp htext
    exact ⟨text, htoken, htext⟩

/-- A layer tag in parentheses: the line has a tag, and its only comment is one in parentheses. -/
theorem hasLayerTag_in_parentheses :
    let line := "(;LAYER:3)".toList
    hasLayerTag line = true ∧ tokens line = [⟨.comment, line⟩] ∧
      ¬ ∃ text, ⟨.comment, ';' :: text⟩ ∈ tokens line := by
  intro line
  have htokens : tokens line = [⟨.comment, line⟩] := by decide +kernel
  refine ⟨by decide +kernel, htokens, ?_⟩
  rintro ⟨text, hmem⟩
  rw [htokens] at hmem
  have heq := congrArg Token.text (List.mem_singleton.mp hmem)
  exact absurd (List.cons.inj heq).1 (by decide)

end PrintJob

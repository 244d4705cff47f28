/-
# Packed and spaced words

Words need no blanks between them, and blanks between tokens change nothing. The texts of the
tokens of a line, written one after another with any spaces and tabs in front of each of them
(`Respaced`), make a line with the same tokens (`tokens_respaced`).

A token is told from what follows it only by where it ends. A word ends where no number goes on,
and neither a blank nor the first character of a token continues one. A comment that takes all the
rest of its line is the last token, and nothing is written behind it.
-/
import PrintJob.Line
import PrintJob.Proofs.MoveCode

namespace PrintJob

/-- The texts of the tokens one after another, with spaces and tabs in front of each of them, or
nothing. -/
inductive Respaced : List Token → List Char → Prop
  | nil : Respaced [] []
  | cons (blanks : List Char) (hblanks : ∀ c ∈ blanks, c = ' ' ∨ c = '\t') {t : Token}
      {ts : List Token} {text : List Char} (rest : Respaced ts text) :
      Respaced (t :: ts) (blanks ++ (t.text ++ text))

/-! ## What stands between tokens -/

/-- A character that begins a token continues no number. -/
theorem BeginsToken.isNumberCharacter_eq_false {c : Char} (h : BeginsToken c) :
    isNumberCharacter c = false := by
  rcases h with halpha | rfl | rfl
  · exact of_ascii (P := fun c => c.isAlpha = true → isNumberCharacter c = false) (by decide)
      (toNat_lt_of_isAlpha halpha) halpha
  · rfl
  · rfl

/-- Spaces and tabs are a gap. -/
theorem isGap_of_blanks {blanks : List Char} (h : ∀ c ∈ blanks, c = ' ' ∨ c = '\t') :
    IsGap blanks := by
  intro c hc
  rcases h c hc with rfl | rfl
  · rintro (halpha | heq | heq) <;> contradiction
  · rintro (halpha | heq | heq) <;> contradiction

/-- Neither a blank nor the first character of a token continues the word in front. -/
theorem Respaced.stopsRun {cut : Cut} {text : List Char} (h : Respaced cut.tokens text)
    (hvalid : cut.IsValid) : StopsRun isNumberCharacter text := by
  cases cut with
  | ending gap =>
    cases h
    exact stopsRun_nil
  | piece gap token rest =>
    obtain ⟨-, htoken, -⟩ := hvalid
    obtain ⟨first, tail, htext, hfirst⟩ := htoken.exists_cons
    cases h with
    | cons blanks hblanks _ =>
      cases blanks with
      | nil =>
        rw [htext]
        exact stopsRun_cons.mpr hfirst.isNumberCharacter_eq_false
      | cons blank _ =>
        refine stopsRun_cons.mpr ?_
        rcases hblanks blank List.mem_cons_self with rfl | rfl <;> rfl

/-- Without tokens there is nothing to write. -/
theorem Respaced.eq_nil {cut : Cut} {text : List Char} (h : Respaced cut.tokens text)
    (hvalid : cut.IsValid) (hline : cut.line = []) : text = [] := by
  rw [← Cut.tokens_line hvalid, hline, tokens_nil] at h
  cases h
  rfl

/-! ## Lines -/

/-- The tokens of a valid cut are those of every line that is made of them. -/
theorem Cut.tokens_respaced {cut : Cut} (hvalid : cut.IsValid) {text : List Char}
    (h : Respaced cut.tokens text) : PrintJob.tokens text = cut.tokens := by
  induction cut generalizing text with
  | ending gap =>
    cases h
    exact tokens_nil
  | piece gap token rest ih =>
    obtain ⟨-, htoken, hrest⟩ := hvalid
    cases h with
    | @cons blanks hblanks _ _ text h =>
      have hplace : IsToken token text :=
        htoken.replace_rest (h.eq_nil hrest) fun _ => h.stopsRun hrest
      rw [tokens_gap (isGap_of_blanks hblanks), tokens_isToken hplace, ih hrest h, Cut.tokens]

/-- **Packed and spaced words split the same way.** However the tokens of a line are spaced, and
also if they are packed, the line that they make up has the same tokens and says the same. -/
theorem tokens_and_parse_respaced (line text : List Char) (h : Respaced (tokens line) text) :
    tokens text = tokens line ∧ Line.parse text = Line.parse line := by
  obtain ⟨cut, hvalid, rfl⟩ := exists_cut line
  have htokens : tokens text = tokens cut.line := by
    rw [Cut.tokens_line hvalid] at h ⊢
    exact Cut.tokens_respaced hvalid h
  rw [Line.parse, htokens]
  exact ⟨rfl, rfl⟩

/-- A line with other characters between its tokens and with a parenthesis that is never closed,
packed in part and with tabs elsewhere. -/
theorem tokens_and_parse_of_packed_line :
    let line := "N7 é,G1   X1(a;b)Y-.5 E 5(;X2 ".toList
    let text := "\tN7G1X1 \t(a;b)Y-.5E  (;X2 ".toList
    Respaced (tokens line) text ∧ tokens text = tokens line ∧
      Line.parse text = Line.parse line := by
  intro line text
  have hrespaced : Respaced (tokens line) text := by
    have htokens : tokens line = [⟨.parameter, "N7".toList⟩, ⟨.command, "G1".toList⟩,
        ⟨.parameter, "X1".toList⟩, ⟨.comment, "(a;b)".toList⟩, ⟨.parameter, "Y-.5".toList⟩,
        ⟨.parameter, ['E']⟩, ⟨.comment, "(;X2 ".toList⟩] := by decide +kernel
    rw [htokens]
    exact .cons ['\t'] (by simp) <| .cons [] (by simp) <| .cons [] (by simp) <|
      .cons [' ', '\t'] (by simp) <| .cons [] (by simp) <| .cons [] (by simp) <|
      .cons [' ', ' '] (by simp) .nil
  exact ⟨hrespaced, tokens_and_parse_respaced line text hrespaced⟩

end PrintJob

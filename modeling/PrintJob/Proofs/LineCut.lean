/-
# How a line is cut into tokens

A *cut* of a line is a sequence of tokens with a gap in front of each of them and
one more gap at the end. It is valid when nothing in a gap could begin a token and
each token is complete: it ends where its kind says, given what follows it in the
line (`IsToken`). A line has a valid cut (`exists_cut`) and no other one
(`Cut.eq_of_line_eq`), and the tokens of that cut are `tokens line`
(`Cut.tokens_line`).
-/
import PrintJob.Token
import PrintJob.Proofs.CharacterRun

namespace PrintJob

/-! ## Gaps and tokens -/

/-- Whether a character begins a token: a letter, or what opens a comment. -/
def BeginsToken (c : Char) : Prop := c.isAlpha = true ∨ c = ';' ∨ c = '('

/-- Nothing in the text begins a token. -/
def IsGap (cs : List Char) : Prop := ∀ c ∈ cs, ¬ BeginsToken c

/-- The letters of commands, in both cases. -/
def commandLetters : List Char := ['G', 'M', 'T', 'g', 'm', 't']

/-- A token is complete when `rest` is all that follows it in the line. -/
inductive IsToken : Token → List Char → Prop
  /-- A semicolon takes all the rest of the line. -/
  | semicolon (text : List Char) : IsToken ⟨.comment, ';' :: text⟩ []
  /-- A parenthesis ends with the first closing one. -/
  | closed {inside : List Char} (rest : List Char) (h : ')' ∉ inside) :
      IsToken ⟨.comment, '(' :: (inside ++ [')'])⟩ rest
  /-- Without a closing one, a parenthesis takes all the rest of the line. -/
  | unclosed {inside : List Char} (h : ')' ∉ inside) : IsToken ⟨.comment, '(' :: inside⟩ []
  /-- A word is a letter and a maximal run of number characters. -/
  | word {letter : Char} {run rest : List Char} (hletter : letter.isAlpha = true)
      (hrun : ∀ c ∈ run, isNumberCharacter c = true) (hrest : StopsRun isNumberCharacter rest) :
      IsToken ⟨if letter ∈ commandLetters then .command else .parameter, letter :: run⟩ rest

/-! ## Cuts -/

/-- A sequence of tokens with gaps around them. -/
inductive Cut where
  /-- The gap behind the last token. -/
  | ending (gap : List Char)
  /-- A gap and the token behind it. -/
  | piece (gap : List Char) (token : Token) (rest : Cut)

namespace Cut

/-- The line that a cut makes up. -/
def line : Cut → List Char
  | .ending gap => gap
  | .piece gap token rest => gap ++ (token.text ++ rest.line)

/-- The tokens of a cut in order. -/
def tokens : Cut → List Token
  | .ending _ => []
  | .piece _ token rest => token :: rest.tokens

/-- The gaps are gaps, and each token is complete where it stands. -/
def IsValid : Cut → Prop
  | .ending gap => IsGap gap
  | .piece gap token rest => IsGap gap ∧ IsToken token rest.line ∧ rest.IsValid

end Cut

/-! ## Comments in parentheses -/

/-- Without a closing parenthesis a text lies inside the comment as a whole. -/
theorem cutComment_append_of_not_mem {inside : List Char} (h : ')' ∉ inside) (rest : List Char) :
    cutComment (inside ++ rest) = (inside ++ (cutComment rest).1, (cutComment rest).2) := by
  induction inside with
  | nil => rfl
  | cons c inside ih =>
    rw [List.mem_cons, not_or] at h
    rw [List.cons_append, cutComment, if_neg (Ne.symm h.1), ih h.2]
    rfl

theorem cutComment_closed {inside : List Char} (h : ')' ∉ inside) (rest : List Char) :
    cutComment (inside ++ ')' :: rest) = (inside ++ [')'], rest) := by
  have hclose : cutComment (')' :: rest) = ([')'], rest) := rfl
  rw [cutComment_append_of_not_mem h, hclose]

theorem cutComment_unclosed {inside : List Char} (h : ')' ∉ inside) :
    cutComment inside = (inside, []) := by
  have hopen := cutComment_append_of_not_mem h []
  rw [List.append_nil] at hopen
  rw [hopen, cutComment, List.append_nil]

/-- A text either holds a closing parenthesis, the first of which can be split off,
or it holds none. -/
theorem closed_or_unclosed (cs : List Char) :
    (∃ inside rest, ')' ∉ inside ∧ cs = inside ++ ')' :: rest) ∨ ')' ∉ cs := by
  by_cases h : ')' ∈ cs
  · obtain ⟨inside, rest, rfl, hinside⟩ := List.eq_append_cons_of_mem h
    exact Or.inl ⟨inside, rest, hinside, rfl⟩
  · exact Or.inr h

/-- Cutting a comment makes a complete token. -/
theorem isToken_cutComment (cs : List Char) :
    IsToken ⟨.comment, '(' :: (cutComment cs).1⟩ (cutComment cs).2 := by
  rcases closed_or_unclosed cs with ⟨inside, rest, h, rfl⟩ | h
  · rw [cutComment_closed h]
    exact .closed rest h
  · rw [cutComment_unclosed h]
    exact .unclosed h

/-- A complete token stays complete when the rest of the line is replaced, as long as nothing is
put where nothing was and a word that stopped is not continued. -/
theorem IsToken.replace_rest {t : Token} {rest rest' : List Char} (h : IsToken t rest)
    (hnil : rest = [] → rest' = [])
    (hstop : StopsRun isNumberCharacter rest → StopsRun isNumberCharacter rest') :
    IsToken t rest' := by
  cases h with
  | semicolon text =>
    rw [hnil rfl]
    exact .semicolon text
  | closed _ hinside => exact .closed rest' hinside
  | unclosed hinside =>
    rw [hnil rfl]
    exact .unclosed hinside
  | word hletter hrun hrest => exact .word hletter hrun (hstop hrest)

/-! ## Words -/

theorem toNat_lt_of_isAlpha {c : Char} (h : c.isAlpha = true) : c.toNat < 128 := by
  rcases Bool.or_eq_true_iff.mp h with h | h
  · have hupper : c.toNat ≤ 'Z'.toNat := (of_decide_eq_true h).2
    exact Nat.lt_of_le_of_lt hupper (by decide)
  · have hlower : c.toNat ≤ 'z'.toNat := of_decide_eq_true (Bool.and_eq_true_iff.mp h).2
    exact Nat.lt_of_le_of_lt hlower (by decide)

/-- The kind of a word, by the letters that name commands. -/
theorem wordKind_of_isAlpha {c : Char} (h : c.isAlpha = true) :
    wordKind c = if c ∈ commandLetters then .command else .parameter :=
  of_ascii (P := fun c => wordKind c = if c ∈ commandLetters then .command else .parameter)
    (by decide) (toNat_lt_of_isAlpha h)

/-- A letter and the number characters behind it make a complete token. -/
theorem isToken_letter {c : Char} (h : c.isAlpha = true) (rest : List Char) :
    IsToken ⟨wordKind c, c :: rest.takeWhile isNumberCharacter⟩
      (rest.dropWhile isNumberCharacter) := by
  rw [wordKind_of_isAlpha h]
  exact .word h (fun _ hc => of_mem_takeWhile hc) (stopsRun_dropWhile _ rest)

/-! ## The tokens of a valid cut -/

/-- A gap is skipped. -/
theorem tokens_gap {gap : List Char} (h : IsGap gap) (rest : List Char) :
    tokens (gap ++ rest) = tokens rest := by
  induction gap with
  | nil => rfl
  | cons c gap ih =>
    have hc := h c List.mem_cons_self
    simp only [BeginsToken, not_or, Bool.not_eq_true] at hc
    rw [List.cons_append, tokens_skip hc.2.1 hc.2.2 hc.1]
    exact ih fun d hd => h d (List.mem_cons_of_mem c hd)

/-- There are no tokens in a gap. -/
theorem tokens_of_isGap {gap : List Char} (h : IsGap gap) : tokens gap = [] := by
  have hgap := tokens_gap h []
  rwa [List.append_nil, tokens_nil] at hgap

/-- A complete token is the first token of the line that begins with it. -/
theorem tokens_isToken {t : Token} {rest : List Char} (h : IsToken t rest) :
    tokens (t.text ++ rest) = t :: tokens rest := by
  cases h with
  | semicolon text => rw [List.append_nil, tokens_semicolon, tokens_nil]
  | @closed inside rest h =>
    show tokens ('(' :: (inside ++ [')'] ++ rest)) = _
    rw [tokens_open, List.append_assoc, List.singleton_append, cutComment_closed h]
  | @unclosed inside h => rw [List.append_nil, tokens_open, cutComment_unclosed h]
  | @word letter run rest hletter hrun hrest =>
    show tokens (letter :: (run ++ rest)) = _
    rw [tokens_letter hletter, takeWhile_run hrun hrest, dropWhile_run hrun hrest,
      wordKind_of_isAlpha hletter]

/-- **A valid cut has the tokens of its line.** -/
theorem Cut.tokens_line {cut : Cut} (h : cut.IsValid) : PrintJob.tokens cut.line = cut.tokens := by
  induction cut with
  | ending gap => exact tokens_of_isGap h
  | piece gap token rest ih =>
    obtain ⟨hgap, htoken, hrest⟩ := h
    rw [Cut.line, tokens_gap hgap, tokens_isToken htoken, ih hrest, Cut.tokens]

/-! ## A valid cut exists -/

/-- A cut with one more character in its first gap. -/
def Cut.skip (c : Char) : Cut → Cut
  | .ending gap => .ending (c :: gap)
  | .piece gap token rest => .piece (c :: gap) token rest

theorem Cut.line_skip (c : Char) (cut : Cut) : (cut.skip c).line = c :: cut.line := by
  cases cut <;> rfl

theorem Cut.isValid_skip {c : Char} (hc : ¬ BeginsToken c) {cut : Cut} (h : cut.IsValid) :
    (cut.skip c).IsValid := by
  have hcons : ∀ gap, IsGap gap → IsGap (c :: gap) := fun gap hgap d hd => by
    rcases List.mem_cons.mp hd with rfl | hd
    · exact hc
    · exact hgap d hd
  cases cut with
  | ending gap => exact hcons gap h
  | piece gap token rest => exact ⟨hcons gap h.1, h.2⟩

/-- **Every line has a valid cut.** -/
theorem exists_cut (line : List Char) : ∃ cut : Cut, cut.IsValid ∧ cut.line = line := by
  have hnil : IsGap [] := fun c hc => by cases hc
  fun_induction tokens line with
  | case1 => exact ⟨.ending [], hnil, rfl⟩
  | case2 rest =>
    exact ⟨.piece [] ⟨.comment, ';' :: rest⟩ (.ending []), ⟨hnil, .semicolon rest, hnil⟩,
      List.append_nil _⟩
  | case3 rest _ ih =>
    obtain ⟨cut, hvalid, hline⟩ := ih
    refine ⟨.piece [] ⟨.comment, '(' :: (cutComment rest).1⟩ cut, ⟨hnil, ?_, hvalid⟩, ?_⟩
    · rw [hline]
      exact isToken_cutComment rest
    · show '(' :: ((cutComment rest).1 ++ cut.line) = '(' :: rest
      rw [hline, cutComment_append]
  | case4 c rest _ _ hc ih =>
    obtain ⟨cut, hvalid, hline⟩ := ih
    refine ⟨.piece [] ⟨wordKind c, c :: rest.takeWhile isNumberCharacter⟩ cut,
      ⟨hnil, ?_, hvalid⟩, ?_⟩
    · rw [hline]
      exact isToken_letter hc rest
    · show c :: (rest.takeWhile isNumberCharacter ++ cut.line) = c :: rest
      rw [hline, List.takeWhile_append_dropWhile]
  | case5 c rest hs ho ha ih =>
    obtain ⟨cut, hvalid, hline⟩ := ih
    have hc : ¬ BeginsToken c := by rintro (h | h | h) <;> contradiction
    exact ⟨cut.skip c, Cut.isValid_skip hc hvalid, by rw [Cut.line_skip, hline]⟩

/-- A token of a valid cut is complete where it stands in the line. -/
theorem Cut.exists_place {cut : Cut} (h : cut.IsValid) {t : Token} (ht : t ∈ cut.tokens) :
    ∃ front rest, cut.line = front ++ (t.text ++ rest) ∧ IsToken t rest := by
  induction cut with
  | ending gap => cases ht
  | piece gap token rest ih =>
    obtain ⟨-, htoken, hrest⟩ := h
    rcases List.mem_cons.mp ht with rfl | hmem
    · exact ⟨gap, rest.line, rfl, htoken⟩
    · obtain ⟨front, back, hline, hplace⟩ := ih hrest hmem
      refine ⟨gap ++ (token.text ++ front), back, ?_, hplace⟩
      rw [Cut.line, hline, List.append_assoc, List.append_assoc]

/-- **Every token of a line stands in it and is complete there.** -/
theorem exists_place_of_mem_tokens {line : List Char} {t : Token} (h : t ∈ tokens line) :
    ∃ front rest, line = front ++ (t.text ++ rest) ∧ IsToken t rest := by
  obtain ⟨cut, hvalid, rfl⟩ := exists_cut line
  rw [Cut.tokens_line hvalid] at h
  exact Cut.exists_place hvalid h

/-! ## No line has two valid cuts -/

/-- A complete token begins with a character that begins a token. -/
theorem IsToken.exists_cons {t : Token} {rest : List Char} (h : IsToken t rest) :
    ∃ c cs, t.text = c :: cs ∧ BeginsToken c := by
  cases h with
  | semicolon text => exact ⟨_, _, rfl, Or.inr (Or.inl rfl)⟩
  | closed _ _ => exact ⟨_, _, rfl, Or.inr (Or.inr rfl)⟩
  | unclosed _ => exact ⟨_, _, rfl, Or.inr (Or.inr rfl)⟩
  | word hletter _ _ => exact ⟨_, _, rfl, Or.inl hletter⟩

/-- Two texts agree in the gaps that they begin with. -/
theorem gap_inj {a b cs ds : List Char} {c d : Char} (ha : IsGap a) (hb : IsGap b)
    (hc : BeginsToken c) (hd : BeginsToken d) (h : a ++ c :: cs = b ++ d :: ds) :
    a = b ∧ c :: cs = d :: ds := by
  induction a generalizing b with
  | nil =>
    cases b with
    | nil => exact ⟨rfl, h⟩
    | cons x b =>
      have hx : c = x := (List.cons.inj h).1
      exact absurd (hx ▸ hc) (hb x List.mem_cons_self)
  | cons x a ih =>
    cases b with
    | nil =>
      have hx : x = d := (List.cons.inj h).1
      exact absurd (hx ▸ hd) (ha x List.mem_cons_self)
    | cons y b =>
      obtain ⟨rfl, htail⟩ := List.cons.inj h
      obtain ⟨rfl, hrest⟩ := ih (fun e he => ha e (List.mem_cons_of_mem x he))
        (fun e he => hb e (List.mem_cons_of_mem x he)) htail
      exact ⟨rfl, hrest⟩

/-- **Valid cuts of one line are equal.** The tokens agree because both are the
tokens of the line; so the gaps agree one after another. -/
theorem Cut.eq_of_line_eq {a b : Cut} (ha : a.IsValid) (hb : b.IsValid) (h : a.line = b.line) :
    a = b := by
  have htokens : a.tokens = b.tokens := by rw [← tokens_line ha, ← tokens_line hb, h]
  induction a generalizing b with
  | ending gap =>
    cases b with
    | ending gap' => exact congrArg Cut.ending h
    | piece gap' token' rest' => cases htokens
  | piece gap token rest ih =>
    cases b with
    | ending gap' => cases htokens
    | piece gap' token' rest' =>
      obtain ⟨rfl, hrests⟩ := List.cons.inj htokens
      obtain ⟨hgap, htoken, hrest⟩ := ha
      obtain ⟨hgap', -, hrest'⟩ := hb
      obtain ⟨c, cs, htext, hc⟩ := htoken.exists_cons
      have hlines : gap ++ c :: (cs ++ rest.line) = gap' ++ c :: (cs ++ rest'.line) := by
        simpa only [Cut.line, htext, List.cons_append] using h
      obtain ⟨rfl, htails⟩ := gap_inj hgap hgap' hc hc hlines
      have hline : rest.line = rest'.line := List.append_cancel_left (List.cons.inj htails).2
      rw [ih hrest hrest' hline hrests]

end PrintJob

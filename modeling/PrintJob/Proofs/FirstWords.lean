/-
# The words that make a move

A move has of each axis, and of the feed rate, the number of one word of its line: the first one
outside comments with the letter and with a value behind it (`FirstWord`). A letter on its own is
passed over; a malformed value is not, so a later word with the same letter is never looked at
(`Move.parse_reads_first_words`). What counts is therefore, for each letter apart, the order of
its words: words of different letters behind the code can change places.
-/
import PrintJob.Proofs.EndOfRun

namespace PrintJob

/-! ## Words with a value -/

/-- The token is a word with this letter and the value `run` behind it. -/
structure Token.Gives (t : Token) (letter : Char) (run : List Char) : Prop where
  kind_ne : t.kind ≠ .comment
  text_eq : t.text = letter :: run
  run_ne : run ≠ []

/-- The first of the tokens that are words with this letter and a value has the value `run`. -/
def FirstAmong (ts : List Token) (letter : Char) (run : List Char) : Prop :=
  ∃ before t after, ts = before ++ t :: after ∧ t.Gives letter run ∧
    ∀ earlier ∈ before, ∀ other, ¬ earlier.Gives letter other

/-- The first word of the line with this letter and a value behind it has the value `run`. -/
def FirstWord (line : List Char) (letter : Char) (run : List Char) : Prop :=
  ∃ cut : Cut, cut.IsValid ∧ cut.line = line ∧ FirstAmong cut.tokens letter run

/-- What a line gives for a letter: the number of its first word with that letter, if that is
well-formed, and nothing without such a word. -/
structure ReadsFirst (line : List Char) (letter : Char) (value : Option Binary64) : Prop where
  first : ∀ run, FirstWord line letter run → value = Parameter.number ⟨letter, run⟩
  absent : (∀ run, ¬ FirstWord line letter run) → value = none

/-- A line has one valid cut, so its tokens decide on its first words. -/
theorem firstWord_iff {line : List Char} {letter : Char} {run : List Char} :
    FirstWord line letter run ↔ FirstAmong (tokens line) letter run := by
  constructor
  · rintro ⟨cut, hvalid, rfl, hfirst⟩
    rwa [Cut.tokens_line hvalid]
  · intro hfirst
    obtain ⟨cut, hvalid, rfl⟩ := exists_cut line
    rw [Cut.tokens_line hvalid] at hfirst
    exact ⟨cut, hvalid, rfl, hfirst⟩

/-! ## Parameters and words -/

/-- The parameter that a token gives, if it is a word with a value. -/
def Parameter.ofToken (t : Token) : Option Parameter :=
  if t.kind == .parameter then Parameter.ofText t.text else none

theorem parametersOf_eq_filterMap (ts : List Token) :
    parametersOf ts = ts.filterMap Parameter.ofToken := by
  rw [parametersOf, List.filterMap_filter]
  rfl

theorem Parameter.ofText_eq_some_iff {text : List Char} {p : Parameter} :
    Parameter.ofText text = some p ↔
      text = p.letter :: p.value ∧ p.value ≠ [] ∧ p.letter.isAlpha = true := by
  cases text with
  | nil => simp [Parameter.ofText]
  | cons letter tail =>
    cases tail with
    | nil =>
      refine iff_of_false (Option.some_ne_none p).symm ?_
      rintro ⟨htext, hne, -⟩
      exact hne (List.cons.inj htext).2.symm
    | cons c rest =>
      rw [Parameter.ofText]
      constructor
      · intro h
        by_cases halpha : letter.isAlpha = true
        · rw [if_pos halpha] at h
          obtain rfl := Option.some.inj h
          exact ⟨rfl, List.cons_ne_nil c rest, halpha⟩
        · rw [if_neg halpha] at h
          cases h
      · rintro ⟨htext, -, halpha⟩
        obtain ⟨rfl, hvalue⟩ := List.cons.inj htext
        rw [if_pos halpha, hvalue]

/-- A complete token that is no comment is a word. -/
theorem IsToken.exists_word {t : Token} {rest : List Char} (h : IsToken t rest)
    (hkind : t.kind ≠ .comment) :
    ∃ letter run, letter.isAlpha = true ∧
      t = ⟨if letter ∈ commandLetters then .command else .parameter, letter :: run⟩ := by
  cases h with
  | semicolon _ => exact absurd rfl hkind
  | closed _ _ => exact absurd rfl hkind
  | unclosed _ => exact absurd rfl hkind
  | word hletter _ _ => exact ⟨_, _, hletter, rfl⟩

/-- Words give parameters, unless their letter is that of a command. -/
theorem Parameter.ofToken_eq_some_iff {t : Token} {rest : List Char} (ht : IsToken t rest)
    {letter : Char} (hletter : letter ∉ commandLetters) {run : List Char} :
    Parameter.ofToken t = some ⟨letter, run⟩ ↔ t.Gives letter run := by
  rw [Parameter.ofToken]
  by_cases hkind : t.kind = .comment
  · rw [hkind]
    constructor
    · intro h
      cases h
    · intro h
      exact absurd hkind h.kind_ne
  · obtain ⟨first, tail, halpha, rfl⟩ := ht.exists_word hkind
    by_cases hcommand : first ∈ commandLetters
    · rw [if_pos hcommand]
      constructor
      · intro h
        cases h
      · intro h
        obtain ⟨rfl, -⟩ := List.cons.inj h.text_eq
        exact absurd hcommand hletter
    · rw [if_neg hcommand]
      refine Parameter.ofText_eq_some_iff.trans ⟨?_, ?_⟩
      · rintro ⟨htext, hne, -⟩
        exact ⟨TokenKind.noConfusion, htext, hne⟩
      · intro h
        obtain ⟨rfl, -⟩ := List.cons.inj h.text_eq
        exact ⟨h.text_eq, h.run_ne, halpha⟩

section TokensOfLine

variable {line : List Char} {letter : Char} (hletter : letter ∉ commandLetters)

include hletter

theorem ofToken_eq_some_iff_gives {t : Token} (ht : t ∈ tokens line) {run : List Char} :
    Parameter.ofToken t = some ⟨letter, run⟩ ↔ t.Gives letter run := by
  obtain ⟨-, rest, -, htoken⟩ := exists_place_of_mem_tokens ht
  exact Parameter.ofToken_eq_some_iff htoken hletter

theorem any_ofToken_iff {t : Token} (ht : t ∈ tokens line) :
    (Parameter.ofToken t).any (fun p => p.letter == letter) = true ↔ ∃ run, t.Gives letter run := by
  rw [Option.any_eq_true]
  constructor
  · rintro ⟨p, hp, heq⟩
    obtain rfl := eq_of_beq heq
    exact ⟨p.value, (ofToken_eq_some_iff_gives hletter ht).mp hp⟩
  · rintro ⟨run, hrun⟩
    exact ⟨⟨letter, run⟩, (ofToken_eq_some_iff_gives hletter ht).mpr hrun, beq_self_eq_true letter⟩

/-- **The parameter that is found by a letter is the first word with that letter.** -/
theorem find?_parametersOf {run : List Char} :
    (parametersOf (tokens line)).find? (fun p => p.letter == letter) = some ⟨letter, run⟩ ↔
      FirstAmong (tokens line) letter run := by
  rw [parametersOf_eq_filterMap, List.find?_filterMap, Option.bind_eq_some_iff]
  constructor
  · rintro ⟨t, hfind, hparameter⟩
    obtain ⟨-, before, after, htokens, hbefore⟩ := List.find?_eq_some_iff_append.mp hfind
    have hmem : t ∈ tokens line := List.mem_of_find?_eq_some hfind
    refine ⟨before, t, after, htokens, (ofToken_eq_some_iff_gives hletter hmem).mp hparameter, ?_⟩
    intro earlier hearlier other hother
    have hmem' : earlier ∈ tokens line := htokens ▸ List.mem_append_left _ hearlier
    have hnone := hbefore earlier hearlier
    rw [(any_ofToken_iff hletter hmem').mpr ⟨other, hother⟩] at hnone
    cases hnone
  · rintro ⟨before, t, after, htokens, ht, hbefore⟩
    have hmem : t ∈ tokens line := htokens ▸ List.mem_append_right _ List.mem_cons_self
    refine ⟨t, List.find?_eq_some_iff_append.mpr ⟨(any_ofToken_iff hletter hmem).mpr ⟨run, ht⟩,
      before, after, htokens, ?_⟩, (ofToken_eq_some_iff_gives hletter hmem).mpr ht⟩
    intro earlier hearlier
    have hmem' : earlier ∈ tokens line := htokens ▸ List.mem_append_left _ hearlier
    rw [Bool.not_eq_true', ← Bool.not_eq_true, any_ofToken_iff hletter hmem']
    rintro ⟨other, hother⟩
    exact hbefore earlier hearlier other hother

/-- **A command gives for a letter what its line gives.** -/
theorem readsFirst_value (name : List Char) (comment : Option (List Char)) :
    ReadsFirst line letter
      (Command.value ⟨name, parametersOf (tokens line), comment⟩ letter) where
  first := by
    intro run hrun
    rw [Command.value, (find?_parametersOf hletter).mpr (firstWord_iff.mp hrun)]
    rfl
  absent := by
    intro hnone
    rw [Command.value, Option.bind_eq_none_iff]
    intro p hp
    have hletters : p.letter = letter := by simpa using List.find?_some hp
    subst hletters
    exact absurd (firstWord_iff.mpr ((find?_parametersOf hletter).mp hp)) (hnone p.value)

end TokensOfLine

/-! ## The order of words -/

/-- The words among tokens that have this letter, in order. -/
def wordsWith (letter : Char) (ts : List Token) : List Token :=
  (wordsOf ts).filter fun t => t.text.head? == some letter

/-- Both have the same words, and those of one letter in the same order. So the words of one
are those of the other with words of different letters moved past one another. -/
def SameUpToLetters (ts us : List Token) : Prop :=
  ∀ letter, wordsWith letter ts = wordsWith letter us

/-- Only words with the letter matter when a parameter is looked for by its letter. -/
theorem find?_parametersOf_wordsWith (letter : Char) (ts : List Token) :
    (parametersOf (wordsWith letter ts)).find? (fun p => p.letter == letter) =
      (parametersOf ts).find? fun p => p.letter == letter := by
  have hletter : ∀ t : Token, (Parameter.ofToken t).any (fun p => p.letter == letter) = true →
      (t.text.head? == some letter) = true := by
    intro t h
    obtain ⟨p, hp, heq⟩ := (Option.any_eq_true _ _).mp h
    have htext : Parameter.ofText t.text = some p := by
      rw [Parameter.ofToken] at hp
      split at hp
      · exact hp
      · cases hp
    rw [(Parameter.ofText_eq_some_iff.mp htext).1, eq_of_beq heq]
    exact beq_self_eq_true (some letter)
  rw [← parametersOf_wordsOf ts, wordsWith, parametersOf_eq_filterMap, parametersOf_eq_filterMap,
    List.find?_filterMap, List.find?_filterMap, List.find?_filter]
  -- what gives a parameter with the letter is a word with the letter, so the filter changes nothing
  congr 2
  funext t
  rw [Bool.decide_and, Bool.decide_eq_true, Bool.decide_eq_true, Bool.and_eq_right_iff_imp]
  exact hletter t

/-- What a command gives for a letter depends on the words with that letter only. -/
theorem value_congr {letter : Char} {ts us : List Token}
    (h : wordsWith letter ts = wordsWith letter us) (name : List Char)
    (comment : Option (List Char)) :
    Command.value ⟨name, parametersOf ts, comment⟩ letter =
      Command.value ⟨name, parametersOf us, comment⟩ letter := by
  rw [Command.value, Command.value, ← find?_parametersOf_wordsWith letter ts, h,
    find?_parametersOf_wordsWith]

/-- **Words of different letters can change places**: for each letter only the order of its own
words matters to the values of a command. -/
theorem ofCommand_congr {ts us : List Token} (h : SameUpToLetters ts us) (name : List Char)
    (comment : Option (List Char)) :
    Move.ofCommand ⟨name, parametersOf ts, comment⟩ =
      Move.ofCommand ⟨name, parametersOf us, comment⟩ := by
  simp only [Move.ofCommand, value_congr (h _)]

/-- What follows the whole run of a code does not matter to it. -/
theorem isLinearMove_code (run : List Char) {back : List Char}
    (h : StopsRun isNumberCharacter back) :
    isLinearMove ('G' :: (run ++ back)) = isLinearMove ('G' :: run) :=
  isLinearMove_append run (stopsRun_isDigit h) (head?_ne_point h)

theorem tokens_code {run back : List Char} (hrun : ∀ c ∈ run, isNumberCharacter c = true)
    (h : StopsRun isNumberCharacter back) :
    tokens ('G' :: (run ++ back)) = ⟨.command, 'G' :: run⟩ :: tokens back := by
  rw [tokens_G, takeWhile_run hrun h, dropWhile_run hrun h]

/-- A line with a command in front has the move of its words. -/
theorem parse_code {run back : List Char} (hrun : ∀ c ∈ run, isNumberCharacter c = true)
    (h : StopsRun isNumberCharacter back) :
    Move.parse ('G' :: (run ++ back)) = if isLinearMove ('G' :: run) then
      some (Move.ofCommand ⟨[], parametersOf (tokens back), none⟩) else none := by
  rw [Move.parse_eq, isLinearMove_code run h, tokens_code hrun h]
  rfl

/-- **A move takes the first word of each letter.** A line has a move exactly if it begins with
`G` and digits that denote zero or one, with no further digit and no point directly behind them,
and then it is a command. The move has of each axis, and of the feed rate, the number of the
first word with that letter, whatever stands behind that word. So words behind the code can be
put into another order, as long as those of one letter stay in theirs. -/
theorem Move.parse_reads_first_words :
    (∀ line, (Move.parse line).isSome = true ↔ ∃ number tail, line = 'G' :: (number ++ tail) ∧
      IsMoveNumber number ∧ StopsRun Char.isDigit tail ∧ tail.head? ≠ some '.') ∧
    (∀ line, isLinearMove line = true → ∃ command, Line.parse line = .command command) ∧
    (∀ line move, Move.parse line = some move →
      ReadsFirst line 'X' move.x ∧ ReadsFirst line 'Y' move.y ∧ ReadsFirst line 'Z' move.z ∧
        ReadsFirst line 'E' move.e ∧ ReadsFirst line 'F' move.feedRate) ∧
    (∀ run back back', (∀ c ∈ run, isNumberCharacter c = true) →
      StopsRun isNumberCharacter back → StopsRun isNumberCharacter back' →
      SameUpToLetters (tokens back) (tokens back') →
      Move.parse ('G' :: (run ++ back)) = Move.parse ('G' :: (run ++ back'))) := by
  refine ⟨?_, ?_, ?_, ?_⟩
  · intro line
    rw [isSome_parse, isLinearMove_iff]
  · intro line h
    obtain ⟨number, tail, rfl, -⟩ := isLinearMove_iff.mp h
    rw [Line.parse, tokens_G]
    exact ⟨_, rfl⟩
  · intro line move hmove
    obtain rfl : Move.ofCommand ⟨[], parametersOf (tokens line), none⟩ = move := by
      rw [parse_eq_moveOfTokens, moveOfTokens_eq] at hmove
      split at hmove
      · obtain ⟨t, -, ht⟩ := Option.map_eq_some_iff.mp hmove
        exact ht
      · cases hmove
    have hreads : ∀ letter, letter ∉ commandLetters → ReadsFirst line letter
        (Command.value ⟨[], parametersOf (tokens line), none⟩ letter) :=
      fun letter hletter => readsFirst_value hletter [] none
    exact ⟨hreads 'X' (by decide), hreads 'Y' (by decide), hreads 'Z' (by decide),
      hreads 'E' (by decide), hreads 'F' (by decide)⟩
  · intro run back back' hrun hback hback' hsame
    rw [parse_code hrun hback, parse_code hrun hback', ofCommand_congr hsame]

/-- Neither a word in a comment, nor a later word behind a malformed one, nor a small letter gives
a value; and words with a comment between them change places. -/
theorem Move.first_words_of_packed_line :
    let line := "G01(X9)X1.2.3 X5Y e4E2".toList
    isLinearMove line = true ∧ FirstWord line 'X' "1.2.3".toList ∧
      (∃ move, Move.parse line = some move ∧ move.x = none ∧ ReadsFirst line 'E' move.e) ∧
      SameUpToLetters (tokens " X1Y2 X3".toList) (tokens "Y2(X4)X1X3".toList) ∧
      Move.parse "G0 X1Y2 X3".toList = Move.parse "G0Y2(X4)X1X3".toList := by
  intro line
  obtain ⟨hsome, -, hreads, horder⟩ := Move.parse_reads_first_words
  have hlinear : isLinearMove line = true := by decide +kernel
  have hfirst : FirstWord line 'X' "1.2.3".toList := by
    have htokens : tokens line = [⟨.command, "G01".toList⟩, ⟨.comment, "(X9)".toList⟩,
        ⟨.parameter, "X1.2.3".toList⟩, ⟨.parameter, "X5".toList⟩, ⟨.parameter, ['Y']⟩,
        ⟨.parameter, "e4".toList⟩, ⟨.parameter, "E2".toList⟩] := by decide +kernel
    refine firstWord_iff.mpr ⟨[⟨.command, "G01".toList⟩, ⟨.comment, "(X9)".toList⟩], _, _, htokens,
      ⟨TokenKind.noConfusion, rfl, List.cons_ne_nil _ _⟩, ?_⟩
    intro earlier hearlier other hother
    have hhead : earlier.text.head? = some 'X' := by rw [hother.text_eq]; rfl
    rcases List.mem_cons.mp hearlier with rfl | hearlier
    · exact absurd hhead (by decide)
    · obtain rfl := List.mem_singleton.mp hearlier
      exact absurd hhead (by decide)
  have hsame : SameUpToLetters (tokens " X1Y2 X3".toList) (tokens "Y2(X4)X1X3".toList) := by
    have htokens : wordsOf (tokens " X1Y2 X3".toList) = [⟨.parameter, "X1".toList⟩,
        ⟨.parameter, "Y2".toList⟩, ⟨.parameter, "X3".toList⟩] := by decide +kernel
    have htokens' : wordsOf (tokens "Y2(X4)X1X3".toList) = [⟨.parameter, "Y2".toList⟩,
        ⟨.parameter, "X1".toList⟩, ⟨.parameter, "X3".toList⟩] := by decide +kernel
    intro letter
    rw [wordsWith, wordsWith, htokens, htokens']
    by_cases hx : letter = 'X'
    · rw [hx]
      decide
    · simp [List.filter_cons, Ne.symm hx]
  refine ⟨hlinear, hfirst, ?_, hsame, ?_⟩
  · obtain ⟨move, hmove⟩ := Option.isSome_iff_exists.mp ((hsome line).mpr
      (isLinearMove_iff.mp hlinear))
    obtain ⟨hx, -, -, he, -⟩ := hreads line move hmove
    have hmalformed : Parameter.number ⟨'X', "1.2.3".toList⟩ = none := by decide +kernel
    exact ⟨move, hmove, (hx.first _ hfirst).trans hmalformed, he⟩
  · exact horder ['0'] " X1Y2 X3".toList "Y2(X4)X1X3".toList
      (List.forall_mem_singleton.mpr rfl) (stopsRun_cons.mpr rfl) (stopsRun_cons.mpr rfl) hsame

end PrintJob

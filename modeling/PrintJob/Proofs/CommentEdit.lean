/-
# Comments do not matter to moves

A move is read from the words of a line; what its comments say is not looked at. A
`CommentEdit` puts a semicolon comment behind a line or changes the inside of a
comment in parentheses. Lines that differ in such edits only carry the same move,
and texts whose lines differ in such edits only have the same simulation.
-/
import Mathlib.Data.List.Forall2
import Mathlib.Logic.Relation
import PrintJob.Estimator
import PrintJob.Proofs.LongerLine
import PrintJob.Proofs.MoveCode
import PrintJob.Proofs.TextRows

namespace PrintJob

/-! ## Moves from words -/

/-- The words among tokens, commands and values alike. -/
def wordsOf (ts : List Token) : List Token := ts.filter fun t => t.kind != .comment

@[simp]
theorem wordsOf_append (a b : List Token) : wordsOf (a ++ b) = wordsOf a ++ wordsOf b :=
  List.filter_append a b

@[simp]
theorem wordsOf_comment (text : List Char) (ts : List Token) :
    wordsOf (⟨.comment, text⟩ :: ts) = wordsOf ts := rfl

/-- Comments give no parameters. -/
theorem parametersOf_wordsOf (ts : List Token) : parametersOf (wordsOf ts) = parametersOf ts := by
  unfold parametersOf wordsOf
  rw [List.filter_filter]
  congr 2
  funext t
  cases t.kind <;> rfl

/-- Comments are no commands. -/
theorem find?_command_wordsOf (ts : List Token) :
    (wordsOf ts).find? (fun t => t.kind == .command) = ts.find? fun t => t.kind == .command := by
  unfold wordsOf
  rw [List.find?_filter]
  congr 1
  funext t
  cases t.kind <;> rfl

/-- The move that tokens make up, if there is a command among them. -/
def moveOfTokens (ts : List Token) : Option Move :=
  match Line.ofTokens ts with
  | .command command => some (Move.ofCommand command)
  | _ => none

theorem Move.parse_eq_moveOfTokens (line : List Char) :
    Move.parse line = if isLinearMove line then moveOfTokens (tokens line) else none := rfl

/-- A move takes nothing but the values from its command. -/
theorem moveOfTokens_eq (ts : List Token) :
    moveOfTokens ts = (ts.find? fun t => t.kind == .command).map fun _ =>
      Move.ofCommand ⟨[], parametersOf ts, none⟩ := by
  unfold moveOfTokens Line.ofTokens
  cases ts.find? fun t => t.kind == .command with
  | some t => rfl
  | none =>
    cases firstComment ts with
    | none => rfl
    | some text => rfl

/-- Tokens with the same words make up the same move. -/
theorem moveOfTokens_congr {ts us : List Token} (h : wordsOf ts = wordsOf us) :
    moveOfTokens ts = moveOfTokens us := by
  rw [moveOfTokens_eq, moveOfTokens_eq, ← find?_command_wordsOf ts, ← find?_command_wordsOf us,
    ← parametersOf_wordsOf ts, ← parametersOf_wordsOf us, h]

/-- **The move on a line depends on its code and its words only.** -/
theorem Move.parse_congr {a b : List Char} (hcode : isLinearMove a = isLinearMove b)
    (hwords : wordsOf (tokens a) = wordsOf (tokens b)) : Move.parse a = Move.parse b := by
  rw [parse_eq_moveOfTokens, parse_eq_moveOfTokens, hcode, moveOfTokens_congr hwords]

/-! ## The code of a longer line -/

/-- A line stays a linear move, or none, when a character that neither continues nor
begins a code is put behind it, and any text behind that. -/
theorem isLinearMove_append_cons (front : List Char) {c : Char} (back : List Char)
    (hdigit : c.isDigit = false) (hpoint : c ≠ '.') (hg : c ≠ 'G') :
    isLinearMove (front ++ c :: back) = isLinearMove front := by
  have hstop : StopsRun Char.isDigit (c :: back) := stopsRun_cons.mpr hdigit
  cases front with
  | nil => exact isLinearMove_of_ne hg back
  | cons d front =>
    by_cases hd : d = 'G'
    · rw [hd, List.cons_append]
      exact isLinearMove_append front hstop fun h => hpoint (Option.some.inj h)
    · rw [List.cons_append, isLinearMove_of_ne hd, isLinearMove_of_ne hd]

/-! ## Edits of comments -/

/-- Every comment that a parenthesis opens in the line is closed in it. -/
def ParenthesesClosed (line : List Char) : Prop :=
  ∀ t ∈ tokens line, t.text.head? = some '(' → t.text.getLast? = some ')'

/-- One edit that leaves the code and the words of a line alone. -/
inductive CommentEdit : List Char → List Char → Prop
  /-- A semicolon comment is put behind a line. -/
  | semicolon (front text : List Char) (h : ParenthesesClosed front) :
      CommentEdit front (front ++ ';' :: text)
  /-- The inside of a comment in parentheses is changed. -/
  | parenthesis (front inside inside' back : List Char) (h : ')' ∉ inside) (h' : ')' ∉ inside') :
      CommentEdit (front ++ '(' :: (inside ++ ')' :: back))
        (front ++ '(' :: (inside' ++ ')' :: back))
  /-- A carriage return is put behind a line; before a newline it ends the line. -/
  | carriageReturn (line : List Char) : CommentEdit line (line ++ ['\r'])

/-- Lines that differ in edits of comments only. -/
def SameButComments : List Char → List Char → Prop := Relation.EqvGen CommentEdit

/-- An open parenthesis leaves a comment that is not closed. -/
theorem not_parenthesesClosed {ts : List Token} {inside front : List Char} (h : ')' ∉ inside)
    (htokens : tokens front = ts ++ [⟨.comment, '(' :: inside⟩]) : ¬ ParenthesesClosed front := by
  intro hclosed
  have hmem : ⟨.comment, '(' :: inside⟩ ∈ tokens front := by
    rw [htokens]
    exact List.mem_append_right ts List.mem_cons_self
  have hlast := hclosed _ hmem rfl
  rcases List.mem_cons.mp (List.mem_of_getLast? hlast) with heq | hinside
  · exact absurd heq (by decide)
  · exact h hinside

/-- Text put behind a line adds its own words, or those behind the comment that it
closes, or none. -/
theorem wordsOf_tokens_append (front : List Char) :
    (∀ back, StopsRun isNumberCharacter back → wordsOf (tokens (front ++ back)) =
        wordsOf (tokens front) ++ wordsOf (tokens back)) ∨
      (¬ ParenthesesClosed front ∧ ∀ back, StopsRun isNumberCharacter back →
        wordsOf (tokens (front ++ back)) =
          wordsOf (tokens front) ++ wordsOf (tokens (cutComment back).2)) ∨
      ∀ back, StopsRun isNumberCharacter back →
        wordsOf (tokens (front ++ back)) = wordsOf (tokens front) := by
  cases lineState front with
  | between hstate =>
    refine Or.inl fun back hback => ?_
    rw [hstate back hback, wordsOf_append]
  | inParenthesis ts inside hinside hstate =>
    have hfront := hstate [] stopsRun_nil
    rw [List.append_nil, cutComment, tokens_nil, List.append_nil] at hfront
    refine Or.inr (Or.inl ⟨not_parenthesesClosed hinside hfront, fun back hback => ?_⟩)
    rw [hstate back hback, hfront, wordsOf_append, wordsOf_append, wordsOf_comment,
      wordsOf_comment, List.append_assoc]
    rfl
  | inLineComment ts text hstate =>
    have hfront := hstate [] stopsRun_nil
    rw [List.append_nil] at hfront
    refine Or.inr (Or.inr fun back hback => ?_)
    rw [hstate back hback, hfront, wordsOf_append, wordsOf_append, wordsOf_comment,
      wordsOf_comment]

/-- A semicolon comment behind a line adds no words. -/
theorem wordsOf_tokens_semicolon {front : List Char} (text : List Char)
    (h : ParenthesesClosed front) :
    wordsOf (tokens (front ++ ';' :: text)) = wordsOf (tokens front) := by
  have hback : StopsRun isNumberCharacter (';' :: text) := stopsRun_cons.mpr rfl
  rcases wordsOf_tokens_append front with hwords | ⟨hopen, -⟩ | hwords
  · rw [hwords _ hback, tokens_semicolon, wordsOf_comment]
    exact List.append_nil _
  · exact absurd h hopen
  · exact hwords _ hback

/-- The words around a comment in parentheses do not depend on its inside. -/
theorem wordsOf_tokens_parenthesis (front : List Char) {inside inside' : List Char}
    (back : List Char) (h : ')' ∉ inside) (h' : ')' ∉ inside') :
    wordsOf (tokens (front ++ '(' :: (inside ++ ')' :: back))) =
      wordsOf (tokens (front ++ '(' :: (inside' ++ ')' :: back))) := by
  have hback : ∀ text, StopsRun isNumberCharacter ('(' :: text) := fun text =>
    stopsRun_cons.mpr rfl
  rcases wordsOf_tokens_append front with hwords | ⟨-, hwords⟩ | hwords
  · rw [hwords _ (hback _), hwords _ (hback _), tokens_open, tokens_open, cutComment_closed h,
      cutComment_closed h', wordsOf_comment, wordsOf_comment]
  · -- the comment is open already, so the parenthesis lies inside it
    have hopen : ∀ cs, ')' ∉ cs → ')' ∉ '(' :: cs := fun cs hcs hmem => by
      rcases List.mem_cons.mp hmem with heq | hmem
      · exact absurd heq (by decide)
      · exact hcs hmem
    have hrest : ∀ cs, ')' ∉ cs → (cutComment ('(' :: (cs ++ ')' :: back))).2 = back := by
      intro cs hcs
      rw [← List.cons_append, cutComment_closed (hopen cs hcs)]
    rw [hwords _ (hback _), hwords _ (hback _), hrest inside h, hrest inside' h']
  · rw [hwords _ (hback _), hwords _ (hback _)]

/-- A carriage return behind a line adds no words. -/
theorem wordsOf_tokens_return (line : List Char) :
    wordsOf (tokens (line ++ ['\r'])) = wordsOf (tokens line) := by
  have hback : StopsRun isNumberCharacter ['\r'] := stopsRun_cons.mpr rfl
  rcases wordsOf_tokens_append line with hwords | ⟨-, hwords⟩ | hwords
  · have hskip : tokens ['\r'] = [] := by
      rw [tokens_skip (by decide) (by decide) rfl, tokens_nil]
    rw [hwords _ hback, hskip]
    exact List.append_nil _
  · have hcut : cutComment ['\r'] = (['\r'], []) := rfl
    rw [hwords _ hback, hcut, tokens_nil]
    exact List.append_nil _
  · exact hwords _ hback

/-! ## Moves and simulations -/

/-- A semicolon comment behind a line keeps its move. -/
theorem parse_semicolon {front : List Char} (text : List Char) (h : ParenthesesClosed front) :
    Move.parse (front ++ ';' :: text) = Move.parse front :=
  Move.parse_congr (isLinearMove_append_cons front text rfl (by decide) (by decide))
    (wordsOf_tokens_semicolon text h)

/-- The inside of a comment in parentheses does not matter to the move. -/
theorem parse_parenthesis (front : List Char) {inside inside' : List Char} (back : List Char)
    (h : ')' ∉ inside) (h' : ')' ∉ inside') :
    Move.parse (front ++ '(' :: (inside ++ ')' :: back)) =
      Move.parse (front ++ '(' :: (inside' ++ ')' :: back)) := by
  refine Move.parse_congr ?_ (wordsOf_tokens_parenthesis front back h h')
  have hcode : ∀ text, isLinearMove (front ++ '(' :: text) = isLinearMove front := fun text =>
    isLinearMove_append_cons front text rfl (by decide) (by decide)
  rw [hcode, hcode]

/-- A carriage return behind a line keeps its move. -/
theorem parse_append_return (line : List Char) :
    Move.parse (line ++ ['\r']) = Move.parse line :=
  Move.parse_congr (isLinearMove_append_cons line [] rfl (by decide) (by decide))
    (wordsOf_tokens_return line)

/-- **Edits of comments keep the move on a line.** -/
theorem parse_eq_of_sameButComments {a b : List Char} (h : SameButComments a b) :
    Move.parse a = Move.parse b := by
  induction h with
  | rel a b hedit =>
    cases hedit with
    | semicolon front text h => exact (parse_semicolon text h).symm
    | parenthesis front inside inside' back h h' => exact parse_parenthesis front back h h'
    | carriageReturn => exact (parse_append_return a).symm
  | refl a => rfl
  | symm a b _ ih => exact ih.symm
  | trans a b c _ _ ihab ihbc => exact ihab.trans ihbc

/-- Lines that differ in comments only have the same moves one by one. -/
theorem filterMap_parse_eq {as bs : List (List Char)} (h : List.Forall₂ SameButComments as bs) :
    as.filterMap Move.parse = bs.filterMap Move.parse := by
  induction h with
  | nil => rfl
  | cons hline _ ih =>
    rw [List.filterMap_cons, List.filterMap_cons, parse_eq_of_sameButComments hline, ih]

/-- The moves of a text are those of its rows, with or without a carriage return. -/
theorem movesOf_eq_filterMap_rows (text : List Char) :
    movesOf text = (text.splitOn '\n').filterMap Move.parse :=
  filterMap_lines rfl parse_append_return text

theorem simulate_congr (settings : EstimatorSettings) {a b : List Char}
    (h : movesOf a = movesOf b) : simulate settings a = simulate settings b := by
  unfold simulate finalState
  rw [h]

/-- **Comments never influence a simulation.** They do not change the move on a line.
So texts have the same simulation if their lines differ in comments only, and also
if what stands between their newlines does. -/
theorem move_and_simulation_ignore_comments :
    (∀ front text, ParenthesesClosed front →
      Move.parse (front ++ ';' :: text) = Move.parse front) ∧
    (∀ front inside inside' back, ')' ∉ inside → ')' ∉ inside' →
      Move.parse (front ++ '(' :: (inside ++ ')' :: back)) =
        Move.parse (front ++ '(' :: (inside' ++ ')' :: back))) ∧
    (∀ settings a b, List.Forall₂ SameButComments (lines a) (lines b) →
      simulate settings a = simulate settings b) ∧
    (∀ settings a b, List.Forall₂ SameButComments (a.splitOn '\n') (b.splitOn '\n') →
      simulate settings a = simulate settings b) := by
  refine ⟨fun front text h => parse_semicolon text h,
    fun front inside inside' back h h' => parse_parenthesis front back h h', ?_, ?_⟩
  · intro settings a b h
    exact simulate_congr settings (filterMap_parse_eq h)
  · intro settings a b h
    refine simulate_congr settings ?_
    rw [movesOf_eq_filterMap_rows, movesOf_eq_filterMap_rows, filterMap_parse_eq h]

theorem parenthesesClosed_packed : ParenthesesClosed "G1X1(a)Y2".toList := by
  have htokens : tokens "G1X1(a)Y2".toList =
      [⟨.command, "G1".toList⟩, ⟨.parameter, "X1".toList⟩, ⟨.comment, "(a)".toList⟩,
        ⟨.parameter, "Y2".toList⟩] := by decide +kernel
  unfold ParenthesesClosed
  rw [htokens]
  decide

/-- The words `Y2` and `X9` in comments of a packed line are no words of its move. -/
theorem ignored_comments_of_packed_line :
    let front := "G1X1(a)Y2".toList
    let commented := "G1X1(Y2;()Y2".toList
    ParenthesesClosed front ∧ Move.parse (front ++ ";(X9".toList) = Move.parse front ∧
      Move.parse front = Move.parse commented ∧
      ∀ settings, simulate settings "G1X1(a)Y2\r\nG0 X3".toList =
        simulate settings "G1X1(a)Y2;(X9\nG0 X3".toList := by
  intro front commented
  obtain ⟨hsemicolon, hparenthesis, -, hrows⟩ := move_and_simulation_ignore_comments
  refine ⟨parenthesesClosed_packed, hsemicolon front "(X9".toList parenthesesClosed_packed,
    hparenthesis "G1X1".toList "a".toList "Y2;(".toList "Y2".toList (by decide) (by decide),
    fun settings => hrows settings _ _ ?_⟩
  have hreturn : SameButComments (front ++ ['\r']) front :=
    .symm _ _ (.rel _ _ (.carriageReturn front))
  have hcomment : SameButComments front (front ++ ";(X9".toList) :=
    .rel _ _ (.semicolon front "(X9".toList parenthesesClosed_packed)
  exact .cons (.trans _ _ _ hreturn hcomment) (.cons (.refl _) .nil)

end PrintJob

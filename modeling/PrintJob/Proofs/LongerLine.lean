/-
# The tokens of a longer line

What stands in front of a place in a line leaves the place in one of three states:
between tokens, inside a comment in parentheses, or inside a comment to the end of
the line (`LineState`). Each state says how the tokens go on with any text that is
put there, as long as the text does not continue a word.
-/
import PrintJob.Proofs.LineCut

namespace PrintJob

/-- How the tokens of a line that begins with `front` go on behind it. -/
inductive LineState (front : List Char) : Prop
  /-- Nothing is open: the tokens of both parts follow one another. -/
  | between (h : ∀ back, StopsRun isNumberCharacter back →
      tokens (front ++ back) = tokens front ++ tokens back)
  /-- A parenthesis is open: the first closing one ends its comment. -/
  | inParenthesis (ts : List Token) (inside : List Char) (hinside : ')' ∉ inside)
      (h : ∀ back, StopsRun isNumberCharacter back → tokens (front ++ back) =
        ts ++ ⟨.comment, '(' :: (inside ++ (cutComment back).1)⟩ :: tokens (cutComment back).2)
  /-- A semicolon comment is open: all that follows belongs to it. -/
  | inLineComment (ts : List Token) (text : List Char)
      (h : ∀ back, StopsRun isNumberCharacter back →
        tokens (front ++ back) = ts ++ [⟨.comment, ';' :: (text ++ back)⟩])

/-- The state is not changed by tokens in front. -/
theorem LineState.of_tokens {front rest : List Char} (before : List Token)
    (state : LineState rest) (h : ∀ back, StopsRun isNumberCharacter back →
      tokens (front ++ back) = before ++ tokens (rest ++ back)) : LineState front := by
  cases state with
  | between hrest =>
    refine .between fun back hback => ?_
    have hfront := h [] stopsRun_nil
    rw [List.append_nil, List.append_nil] at hfront
    rw [h back hback, hrest back hback, hfront, List.append_assoc]
  | inParenthesis ts inside hinside hrest =>
    refine .inParenthesis (before ++ ts) inside hinside fun back hback => ?_
    rw [h back hback, hrest back hback, List.append_assoc]
  | inLineComment ts text hrest =>
    refine .inLineComment (before ++ ts) text fun back hback => ?_
    rw [h back hback, hrest back hback, List.append_assoc]

/-- What follows a word is no longer part of it when more text is added. -/
theorem stopsRun_append {p : Char → Bool} {rest back : List Char} (hrest : StopsRun p rest)
    (hback : StopsRun p back) : StopsRun p (rest ++ back) := by
  cases rest with
  | nil => exact hback
  | cons c cs => exact stopsRun_cons.mpr (stopsRun_cons.mp hrest)

/-- A token that stays complete in every longer line does not change the state. -/
theorem LineState.cons {token : Token} {rest : List Char} (state : LineState rest)
    (h : ∀ back, StopsRun isNumberCharacter back → IsToken token (rest ++ back)) :
    LineState (token.text ++ rest) := by
  refine .of_tokens [token] state fun back hback => ?_
  rw [List.append_assoc]
  exact tokens_isToken (h back hback)

/-- The state behind a complete token, given the state behind the rest of the line. -/
theorem lineState_token {token : Token} {rest : List Char} (h : IsToken token rest)
    (state : LineState rest) : LineState (token.text ++ rest) := by
  cases h with
  | semicolon text =>
    refine .inLineComment [] text fun back _ => ?_
    rw [List.append_nil]
    exact tokens_semicolon (text ++ back)
  | closed rest h => exact state.cons fun back _ => .closed (rest ++ back) h
  | @unclosed inside h =>
    refine .inParenthesis [] inside h fun back _ => ?_
    rw [List.append_nil, List.cons_append, tokens_open, cutComment_append_of_not_mem h]
    rfl
  | word hletter hrun hrest =>
    exact state.cons fun back hback => .word hletter hrun (stopsRun_append hrest hback)

/-- **Every beginning of a line leaves one of the three states.** -/
theorem lineState (front : List Char) : LineState front := by
  obtain ⟨cut, hvalid, rfl⟩ := exists_cut front
  induction cut with
  | ending gap =>
    refine .between fun back _ => ?_
    show tokens (gap ++ back) = tokens gap ++ tokens back
    rw [tokens_gap hvalid, tokens_of_isGap hvalid, List.nil_append]
  | piece gap token rest ih =>
    obtain ⟨hgap, htoken, hrest⟩ := hvalid
    have state := lineState_token htoken (ih hrest)
    refine .of_tokens [] state fun back _ => ?_
    show tokens (gap ++ (token.text ++ rest.line) ++ back) = _
    rw [List.append_assoc, tokens_gap hgap, List.nil_append]

end PrintJob

/-
# Extruder values do not matter to time and travel

The extruder does not travel, so what a move says about it changes neither the length of the move
nor whether its time and travel count. Runs over moves that differ in these values only therefore
stay in states that differ in the place of the extruder only (`MotionState.SameButExtruder.run`).

For texts this means that the number in an `E` word can be replaced by any other run of digits,
points and signs (`ExtruderEdit`), well-formed or not. The new run belongs to the same word, and
the letter, which can also mark an exponent in a number, is never part of a number in front of it.
-/
import Mathlib.Data.List.Forall2
import Mathlib.Logic.Relation
import PrintJob.Proofs.FirstWords

namespace PrintJob

/-! ## All but the extruder -/

/-- The head is at the same place. -/
structure Position.SameHead (p q : Position) : Prop where
  x : p.x = q.x
  y : p.y = q.y
  z : p.z = q.z

/-- The moves give the same, apart from the extruder. -/
structure Move.SameButExtruder (move other : Move) : Prop where
  x : move.x = other.x
  y : move.y = other.y
  z : move.z = other.z
  feedRate : move.feedRate = other.feedRate

/-- The states are the same, apart from the place of the extruder. -/
structure MotionState.SameButExtruder (a b : MotionState) : Prop where
  head : a.position.SameHead b.position
  feedRate : a.feedRate = b.feedRate
  elapsed : a.elapsed = b.elapsed
  distance : a.distance = b.distance
  moves : a.moves = b.moves

/-- The outcomes are the same, apart from the last place of the extruder. -/
structure Simulation.SameButExtruder (a b : Simulation) : Prop where
  seconds : a.seconds = b.seconds
  distance : a.distance = b.distance
  moves : a.moves = b.moves
  finalHead : a.finalPosition.SameHead b.finalPosition
  finalFeedRate : a.finalFeedRate = b.finalFeedRate

theorem Move.SameButExtruder.refl (move : Move) : move.SameButExtruder move := ⟨rfl, rfl, rfl, rfl⟩

theorem Move.SameButExtruder.trans {a b c : Move} (hab : a.SameButExtruder b)
    (hbc : b.SameButExtruder c) : a.SameButExtruder c where
  x := hab.x.trans hbc.x
  y := hab.y.trans hbc.y
  z := hab.z.trans hbc.z
  feedRate := hab.feedRate.trans hbc.feedRate

/-! ## Runs -/

theorem Position.SameHead.target {p q : Position} (h : p.SameHead q) {move other : Move}
    (hmove : move.SameButExtruder other) : (move.target p).SameHead (other.target q) where
  x := by rw [Move.target, Move.target, h.x, hmove.x]
  y := by rw [Move.target, Move.target, h.y, hmove.y]
  z := by rw [Move.target, Move.target, h.z, hmove.z]

/-- The way is that of the head. -/
theorem Position.SameHead.distanceTo {p q p' q' : Position} (h : p.SameHead q)
    (h' : p'.SameHead q') : p.distanceTo p' = q.distanceTo q' := by
  rw [Position.distanceTo, Position.distanceTo, h.x, h.y, h.z, h'.x, h'.y, h'.z]

namespace MotionState.SameButExtruder

variable {a b : MotionState} {move other : Move}

theorem lengthOf (h : a.SameButExtruder b) (hmove : move.SameButExtruder other) :
    a.lengthOf move = b.lengthOf other :=
  h.head.distanceTo (h.head.target hmove)

theorem feedRateFor (h : a.SameButExtruder b) (hmove : move.SameButExtruder other)
    (policy : FeedPolicy) : a.feedRateFor policy move = b.feedRateFor policy other := by
  rw [MotionState.feedRateFor, MotionState.feedRateFor, hmove.feedRate, h.feedRate]

theorem elapsedAfter (h : a.SameButExtruder b) (feedRate length : Binary64) :
    a.elapsedAfter feedRate length = b.elapsedAfter feedRate length := by
  rw [MotionState.elapsedAfter, MotionState.elapsedAfter, h.elapsed]

/-- A move counts or does not, whatever it says about the extruder. -/
theorem counts (h : a.SameButExtruder b) (hmove : move.SameButExtruder other)
    (policy : FeedPolicy) : a.counts policy move = b.counts policy other := by
  rw [MotionState.counts, MotionState.counts, h.lengthOf hmove, h.feedRateFor hmove,
    h.elapsedAfter, h.distance]

/-- **A move keeps the states the same but for the extruder**, also one that does not count. -/
theorem step (h : a.SameButExtruder b) (hmove : move.SameButExtruder other)
    (policy : FeedPolicy) :
    (MotionState.step policy a move).SameButExtruder (MotionState.step policy b other) where
  head := h.head.target hmove
  feedRate := h.feedRateFor hmove policy
  elapsed := by
    simp only [MotionState.step, h.counts hmove, h.feedRateFor hmove, h.lengthOf hmove,
      h.elapsedAfter, h.elapsed]
  distance := by
    simp only [MotionState.step, h.counts hmove, h.lengthOf hmove, h.distance]
  moves := by rw [moves_step, moves_step, h.moves]

/-- **Runs over moves that differ for the extruder only** end in states that do. -/
theorem run (h : a.SameButExtruder b) {as bs : List Move}
    (hmoves : List.Forall₂ Move.SameButExtruder as bs) (policy : FeedPolicy) :
    (MotionState.run policy a as).SameButExtruder (MotionState.run policy b bs) :=
  List.rel_foldl (fun _ _ hstate _ _ hmove => hstate.step hmove policy) h hmoves

theorem toSimulation (h : a.SameButExtruder b) :
    a.toSimulation.SameButExtruder b.toSimulation where
  seconds := h.elapsed
  distance := h.distance
  moves := h.moves
  finalHead := h.head
  finalFeedRate := h.feedRate

end MotionState.SameButExtruder

theorem MotionState.sameButExtruder_self (state : MotionState) : state.SameButExtruder state :=
  ⟨⟨rfl, rfl, rfl⟩, rfl, rfl, rfl, rfl⟩

/-- Texts with moves that differ for the extruder only have outcomes that do. -/
theorem simulate_sameButExtruder (settings : EstimatorSettings) {a b : List Char}
    (h : List.Forall₂ Move.SameButExtruder (movesOf a) (movesOf b)) :
    (simulate settings a).SameButExtruder (simulate settings b) :=
  ((MotionState.sameButExtruder_self _).run h settings.policy).toSimulation

/-! ## Numbers of extruder words -/

/-- The letter of the extruder, in both cases. -/
def extruderLetters : List Char := ['E', 'e']

/-- The cuts are the same but for the number of one word with the letter of the extruder. -/
inductive Cut.ReplacesNumber : Cut → Cut → Prop
  | here (gap : List Char) {letter : Char} (hletter : letter ∈ extruderLetters)
      (run run' : List Char) (hrun' : ∀ c ∈ run', isNumberCharacter c = true) (rest : Cut) :
      Cut.ReplacesNumber (.piece gap ⟨.parameter, letter :: run⟩ rest)
        (.piece gap ⟨.parameter, letter :: run'⟩ rest)
  | behind (gap : List Char) (token : Token) {rest rest' : Cut} (h : rest.ReplacesNumber rest') :
      Cut.ReplacesNumber (.piece gap token rest) (.piece gap token rest')

/-- One word of a line with the letter of the extruder has another run of digits, points and signs
behind it. -/
def ExtruderEdit (line line' : List Char) : Prop :=
  ∃ cut cut' : Cut, cut.IsValid ∧ cut.line = line ∧ cut.ReplacesNumber cut' ∧ cut'.line = line'

/-- A word is complete with any number behind its letter. -/
theorem IsToken.replace_run {letter : Char} {run rest : List Char}
    (h : IsToken ⟨.parameter, letter :: run⟩ rest) {run' : List Char}
    (hrun' : ∀ c ∈ run', isNumberCharacter c = true) :
    IsToken ⟨.parameter, letter :: run'⟩ rest := by
  generalize ht : (⟨.parameter, letter :: run⟩ : Token) = t at h
  cases h with
  | semicolon _ => cases ht
  | closed _ _ => cases ht
  | unclosed _ => cases ht
  | word hletter _ hrest =>
    obtain ⟨hkind, htext⟩ := Token.mk.inj ht
    obtain ⟨rfl, -⟩ := List.cons.inj htext
    rw [hkind]
    exact .word hletter hrun' hrest

namespace Cut.ReplacesNumber

variable {cut cut' : Cut}

/-- Both lines begin with the same character. -/
theorem head?_line (h : cut.ReplacesNumber cut') : cut.line.head? = cut'.line.head? := by
  induction h with
  | here gap _ run run' _ rest => simp only [Cut.line, List.head?_append, List.head?_cons]
  | behind gap token _ ih => simp only [Cut.line, List.head?_append, ih]

/-- The word stays complete with its new number, and so do the tokens in front of it. -/
theorem isValid (h : cut.ReplacesNumber cut') (hvalid : cut.IsValid) : cut'.IsValid := by
  induction h with
  | here gap hletter run run' hrun' rest =>
    obtain ⟨hgap, htoken, hrest⟩ := hvalid
    exact ⟨hgap, htoken.replace_run hrun', hrest⟩
  | behind gap token hrest ih =>
    obtain ⟨hgap, htoken, hvalidRest⟩ := hvalid
    have hhead := hrest.head?_line
    refine ⟨hgap, htoken.replace_rest ?_ ?_, ih hvalidRest⟩
    · intro hnil
      rw [hnil] at hhead
      exact List.head?_eq_none_iff.mp hhead.symm
    · intro hstop c hc
      exact hstop c (hhead.trans hc)

/-- The words with any other letter stay as they are. -/
theorem wordsWith_tokens (h : cut.ReplacesNumber cut') {letter : Char}
    (hletter : letter ∉ extruderLetters) :
    wordsWith letter cut.tokens = wordsWith letter cut'.tokens := by
  induction h with
  | @here gap own hown run run' _ rest =>
    have hne : own ≠ letter := fun heq => hletter (heq ▸ hown)
    simp [Cut.tokens, wordsWith, wordsOf, hne]
  | behind gap token _ ih =>
    simp only [Cut.tokens, wordsWith, wordsOf, List.filter_cons] at ih ⊢
    split
    · rw [List.filter_cons, List.filter_cons, ih]
    · exact ih

/-- In front of the letter nothing changes. -/
theorem exists_front (h : cut.ReplacesNumber cut') : ∃ front letter back back',
    letter ∈ extruderLetters ∧ cut.line = front ++ letter :: back ∧
      cut'.line = front ++ letter :: back' := by
  induction h with
  | here gap hletter run run' _ rest =>
    exact ⟨gap, _, run ++ rest.line, run' ++ rest.line, hletter, rfl, rfl⟩
  | behind gap token _ ih =>
    obtain ⟨front, letter, back, back', hletter, hline, hline'⟩ := ih
    refine ⟨gap ++ (token.text ++ front), letter, back, back', hletter, ?_, ?_⟩
    · rw [Cut.line, hline, List.append_assoc, List.append_assoc]
    · rw [Cut.line, hline', List.append_assoc, List.append_assoc]

end Cut.ReplacesNumber

namespace ExtruderEdit

variable {line line' : List Char}

/-- The code of the line stays as it is. -/
theorem isLinearMove_eq (h : ExtruderEdit line line') : isLinearMove line = isLinearMove line' := by
  obtain ⟨cut, cut', -, rfl, hreplaces, rfl⟩ := h
  obtain ⟨front, letter, back, back', hletter, hline, hline'⟩ := hreplaces.exists_front
  have hcode : ∀ back, isLinearMove (front ++ letter :: back) = isLinearMove front := by
    intro back
    rcases List.mem_pair.mp hletter with rfl | rfl
    · exact isLinearMove_append_cons front back rfl (by decide) (by decide)
    · exact isLinearMove_append_cons front back rfl (by decide) (by decide)
  rw [hline, hline', hcode, hcode]

theorem wordsWith_tokens (h : ExtruderEdit line line') {letter : Char}
    (hletter : letter ∉ extruderLetters) :
    wordsWith letter (tokens line) = wordsWith letter (tokens line') := by
  obtain ⟨cut, cut', hvalid, rfl, hreplaces, rfl⟩ := h
  rw [Cut.tokens_line hvalid, Cut.tokens_line (hreplaces.isValid hvalid)]
  exact hreplaces.wordsWith_tokens hletter

/-- **The move of the line stays the same but for the extruder**, if the line has one. -/
theorem parse (h : ExtruderEdit line line') :
    Option.Rel Move.SameButExtruder (Move.parse line) (Move.parse line') := by
  rw [Move.parse_eq, Move.parse_eq, ← h.isLinearMove_eq]
  by_cases hlinear : isLinearMove line = true
  · rw [if_pos hlinear, if_pos hlinear]
    exact .some ⟨value_congr (h.wordsWith_tokens (by decide)) _ _,
      value_congr (h.wordsWith_tokens (by decide)) _ _,
      value_congr (h.wordsWith_tokens (by decide)) _ _,
      value_congr (h.wordsWith_tokens (by decide)) _ _⟩
  · rw [if_neg hlinear, if_neg hlinear]
    exact .none

end ExtruderEdit

/-! ## Lines -/

theorem sameButExtruder_rel_self (move : Option Move) :
    Option.Rel Move.SameButExtruder move move := by
  cases move with
  | none => exact .none
  | some move => exact .some (.refl move)

theorem sameButExtruder_rel_trans {a b c : Option Move}
    (hab : Option.Rel Move.SameButExtruder a b) (hbc : Option.Rel Move.SameButExtruder b c) :
    Option.Rel Move.SameButExtruder a c := by
  cases hab with
  | none => exact hbc
  | some hab =>
    cases hbc with
    | some hbc => exact .some (hab.trans hbc)

/-- Lines that differ in numbers of extruder words only. -/
def SameButNumbers : List Char → List Char → Prop := Relation.ReflTransGen ExtruderEdit

/-- **Edits of extruder numbers change moves for the extruder only.** -/
theorem SameButNumbers.parse {line line' : List Char} (h : SameButNumbers line line') :
    Option.Rel Move.SameButExtruder (Move.parse line) (Move.parse line') := by
  induction h with
  | refl => exact sameButExtruder_rel_self _
  | tail _ hedit ih => exact sameButExtruder_rel_trans ih hedit.parse

/-- The lines of two texts, or the rows between their newlines, differ in numbers of extruder words
only. -/
def SameButExtruderNumbers (a b : List Char) : Prop :=
  List.Forall₂ SameButNumbers (lines a) (lines b) ∨
    List.Forall₂ SameButNumbers (a.splitOn '\n') (b.splitOn '\n')

/-- Replacing numbers of extruder words changes the moves for the extruder only. -/
theorem SameButExtruderNumbers.movesOf {a b : List Char} (h : SameButExtruderNumbers a b) :
    List.Forall₂ Move.SameButExtruder (movesOf a) (movesOf b) := by
  have hmoves : ∀ as bs, List.Forall₂ SameButNumbers as bs →
      List.Forall₂ Move.SameButExtruder (as.filterMap Move.parse) (bs.filterMap Move.parse) :=
    fun as bs hlines => List.rel_filterMap (fun _ _ hline => hline.parse) hlines
  rcases h with hlines | hrows
  · exact hmoves _ _ hlines
  · rw [movesOf_eq_filterMap_rows, movesOf_eq_filterMap_rows]
    exact hmoves _ _ hrows

/-! ## Texts -/

/-- **The extruder never influences time or travel.** If the moves of two texts differ for the
extruder only, then so do the states behind any number of them, and the outcomes. On a line the
number of any word with the letter of the extruder can be replaced by any other digits, points and
signs: that changes its move for the extruder only, if it has one. So it changes at most the last
place of the extruder in the outcome of a text. -/
theorem extruder_never_matters :
    (∀ settings a b, List.Forall₂ Move.SameButExtruder (movesOf a) (movesOf b) →
      let after (text : List Char) (n : Nat) := MotionState.run settings.policy
        (.start settings.startingFeedRate) ((movesOf text).take n)
      (∀ n, (after a n).SameButExtruder (after b n)) ∧
        (simulate settings a).SameButExtruder (simulate settings b)) ∧
    (∀ line line', ExtruderEdit line line' →
      Option.Rel Move.SameButExtruder (Move.parse line) (Move.parse line')) ∧
    ∀ settings a b, SameButExtruderNumbers a b →
      (simulate settings a).SameButExtruder (simulate settings b) := by
  refine ⟨?_, ?_, ?_⟩
  · intro settings a b hmoves after
    refine ⟨fun n => ?_, simulate_sameButExtruder settings hmoves⟩
    exact (MotionState.sameButExtruder_self _).run (List.forall₂_take n hmoves) settings.policy
  · intro line line' hedit
    exact hedit.parse
  · intro settings a b hnumbers
    exact simulate_sameButExtruder settings hnumbers.movesOf

/-- Moves with another extruder value, with none, and with one that is malformed; and a line whose
extruder number is replaced in front of a comment with the same letter. -/
theorem extruder_never_matters_on_packed_lines :
    let settings : EstimatorSettings := ⟨600, .skipMove⟩
    let a := "G1 X3 E1 F300\nG0 Y4\nG1 E-7".toList
    let b := "G1X3(E)E1.2.3F300\n;E\nG0E5Y4\nG1\n".toList
    let after (text : List Char) (n : Nat) := MotionState.run settings.policy
      (.start settings.startingFeedRate) ((movesOf text).take n)
    let line := "G1X1E5(E9)".toList
    let line' := "G1X1E-.+5.(E9)".toList
    List.Forall₂ Move.SameButExtruder (movesOf a) (movesOf b) ∧
      (after a 2).SameButExtruder (after b 2) ∧
      (simulate settings a).SameButExtruder (simulate settings b) ∧
      ExtruderEdit line line' ∧
      Option.Rel Move.SameButExtruder (Move.parse line) (Move.parse line') ∧
      SameButExtruderNumbers (a ++ '\n' :: line) (a ++ '\n' :: line') ∧
      (simulate settings (a ++ '\n' :: line)).SameButExtruder
        (simulate settings (a ++ '\n' :: line')) := by
  intro settings a b after line line'
  have hmoves : List.Forall₂ Move.SameButExtruder (movesOf a) (movesOf b) := by
    have ha : movesOf a = [⟨some 3, none, none, some 1, some 300⟩, ⟨none, some 4, none, none, none⟩,
        ⟨none, none, none, some (-7), none⟩] := by decide +kernel
    have hb : movesOf b = [⟨some 3, none, none, none, some 300⟩,
        ⟨none, some 4, none, some 5, none⟩, ⟨none, none, none, none, none⟩] := by decide +kernel
    rw [ha, hb]
    exact .cons ⟨rfl, rfl, rfl, rfl⟩ (.cons ⟨rfl, rfl, rfl, rfl⟩ (.cons ⟨rfl, rfl, rfl, rfl⟩ .nil))
  have hedit : ExtruderEdit line line' := by
    have hgap : IsGap [] := List.forall_mem_nil _
    refine ⟨.piece [] ⟨.command, "G1".toList⟩ <| .piece [] ⟨.parameter, "X1".toList⟩ <|
      .piece [] ⟨.parameter, "E5".toList⟩ <| .piece [] ⟨.comment, "(E9)".toList⟩ <| .ending [],
      _, ?_, rfl, .behind _ _ <| .behind _ _ <| .here _ (by decide) _ "-.+5.".toList ?_ _, rfl⟩
    · exact ⟨hgap, isToken_letter (c := 'G') rfl "1X1E5(E9)".toList,
        hgap, isToken_letter (c := 'X') rfl "1E5(E9)".toList,
        hgap, isToken_letter (c := 'E') rfl "5(E9)".toList,
        hgap, @IsToken.closed "E9".toList _ (by decide), hgap⟩
    · exact List.all_eq_true.mp (by decide)
  obtain ⟨hruns, hline, htexts⟩ := extruder_never_matters
  obtain ⟨hstates, houtcomes⟩ := hruns settings a b hmoves
  have hnumbers : SameButExtruderNumbers (a ++ '\n' :: line) (a ++ '\n' :: line') := by
    have hrows : (a ++ '\n' :: line).splitOn '\n' =
        ["G1 X3 E1 F300".toList, "G0 Y4".toList, "G1 E-7".toList, line] := by decide +kernel
    have hrows' : (a ++ '\n' :: line').splitOn '\n' =
        ["G1 X3 E1 F300".toList, "G0 Y4".toList, "G1 E-7".toList, line'] := by decide +kernel
    right
    rw [hrows, hrows']
    exact .cons .refl (.cons .refl (.cons .refl (.cons (.single hedit) .nil)))
  exact ⟨hmoves, hstates 2, houtcomes, hedit, hline line line' hedit, hnumbers,
    htexts settings _ _ hnumbers⟩

end PrintJob

/-
# The code of a linear move

Whether a line is a linear move is told from its first characters, while a word of
the line runs on through points and signs. The two agree on the code of a line
except when a sign stands directly behind a zero or a one: the line counts as a
linear move, but the word that it begins with has another number
(`isLinearMove_iff`, `isLinearMove_and_first_word`).
-/
import Mathlib.Tactic.Tauto
import PrintJob.Move
import PrintJob.Proofs.DigitRun
import PrintJob.Proofs.LineCut

namespace PrintJob

/-! ## The first characters of a line -/

theorem isLinearMove_of_ne {c : Char} (h : c ≠ 'G') (rest : List Char) :
    isLinearMove (c :: rest) = false := by
  unfold isLinearMove
  split
  · exact absurd (List.cons.inj ‹_›).1 h
  · rfl

/-- Digits that denote zero or one. -/
def IsMoveNumber (number : List Char) : Prop :=
  number ≠ [] ∧ (∀ c ∈ number, c.isDigit = true) ∧ ofDigits number ≤ 1

/-- The line is `G`, a number that is zero or one, and then neither a digit nor a point. -/
theorem isLinearMove_iff {line : List Char} :
    isLinearMove line = true ↔ ∃ number tail, line = 'G' :: (number ++ tail) ∧
      IsMoveNumber number ∧ StopsRun Char.isDigit tail ∧ tail.head? ≠ some '.' := by
  constructor
  · intro h
    cases line with
    | nil => cases h
    | cons c rest =>
      by_cases hc : c = 'G'
      · subst hc
        simp only [isLinearMove, Bool.and_eq_true, Bool.or_eq_true, Bool.not_eq_true',
          bne_iff_ne, beq_iff_eq, List.isEmpty_eq_false_iff] at h
        obtain ⟨⟨hne, hpoint⟩, hcode⟩ := h
        have hdigits : ∀ c ∈ rest.takeWhile Char.isDigit, c.isDigit = true :=
          fun c hc => of_mem_takeWhile hc
        have hnumber : IsMoveNumber (rest.takeWhile Char.isDigit) :=
          ⟨hne, hdigits, (ofDigits_le_one_iff hdigits).mpr hcode⟩
        refine ⟨rest.takeWhile Char.isDigit, rest.dropWhile Char.isDigit, ?_, hnumber,
          stopsRun_dropWhile _ rest, hpoint⟩
        rw [List.takeWhile_append_dropWhile]
      · rw [isLinearMove_of_ne hc] at h
        cases h
  · rintro ⟨number, tail, rfl, ⟨hne, hdigits, hle⟩, hstop, hpoint⟩
    have hcode := (ofDigits_le_one_iff hdigits).mp hle
    simp only [isLinearMove, takeWhile_run hdigits hstop, dropWhile_run hdigits hstop,
      Bool.and_eq_true, Bool.or_eq_true, Bool.not_eq_true', bne_iff_ne, beq_iff_eq,
      List.isEmpty_eq_false_iff]
    exact ⟨⟨hne, hpoint⟩, hcode⟩

/-- What follows a code does not matter to it, if it neither continues the number of the code nor
begins with a point. -/
theorem isLinearMove_append (code : List Char) {back : List Char}
    (hdigit : StopsRun Char.isDigit back) (hpoint : back.head? ≠ some '.') :
    isLinearMove ('G' :: (code ++ back)) = isLinearMove ('G' :: code) := by
  have hhead : (((code ++ back).dropWhile Char.isDigit).head? != some '.') =
      ((code.dropWhile Char.isDigit).head? != some '.') := by
    rw [dropWhile_append_of_stopsRun code hdigit]
    cases code.dropWhile Char.isDigit with
    | nil =>
      show (back.head? != some '.') = true
      exact bne_iff_ne.mpr hpoint
    | cons e tail => rfl
  simp only [isLinearMove, takeWhile_append_of_stopsRun code hdigit, hhead]

/-! ## The first word of a line -/

/-- The line begins with a command that is `G` and a number that is zero or one, and
nothing else belongs to that word. -/
def BeginsWithMoveWord (line : List Char) : Prop :=
  ∃ number ts, tokens line = ⟨.command, 'G' :: number⟩ :: ts ∧ 'G' :: number <+: line ∧
    IsMoveNumber number

/-- A sign stands directly behind `G` and a number that is zero or one. -/
def SignFollowsCode (line : List Char) : Prop :=
  ∃ number sign rest, line = 'G' :: (number ++ sign :: rest) ∧ IsMoveNumber number ∧
    (sign = '+' ∨ sign = '-')

/-- A line that begins with `G` has all number characters behind it in its first word. -/
theorem tokens_G (rest : List Char) :
    tokens ('G' :: rest) = ⟨.command, 'G' :: rest.takeWhile isNumberCharacter⟩ ::
      tokens (rest.dropWhile isNumberCharacter) :=
  tokens_letter (c := 'G') rfl rest

theorem isNumberCharacter_of_isDigit {c : Char} (h : c.isDigit = true) :
    isNumberCharacter c = true := by
  simp [isNumberCharacter, h]

/-- What does not continue the number of a word begins with neither a digit nor a point. -/
theorem stopsRun_isDigit {tail : List Char} (h : StopsRun isNumberCharacter tail) :
    StopsRun Char.isDigit tail := by
  intro c hc
  rw [← Bool.not_eq_true]
  intro hdigit
  have hnumber := h c hc
  rw [isNumberCharacter_of_isDigit hdigit] at hnumber
  cases hnumber

theorem head?_ne_point {tail : List Char} (h : StopsRun isNumberCharacter tail) :
    tail.head? ≠ some '.' := fun hpoint => absurd (h '.' hpoint) (by decide)

/-- A number character is a digit, a point or a sign. -/
theorem isNumberCharacter_iff {c : Char} :
    isNumberCharacter c = true ↔ c.isDigit = true ∨ c = '.' ∨ c = '+' ∨ c = '-' := by
  simp only [isNumberCharacter, Bool.or_eq_true, beq_iff_eq]
  tauto

theorem IsMoveNumber.isNumberCharacter {number : List Char} (h : IsMoveNumber number) :
    ∀ c ∈ number, isNumberCharacter c = true := fun c hc =>
  isNumberCharacter_of_isDigit (h.2.1 c hc)

/-- The first word takes all the number characters behind its letter. -/
theorem takeWhile_of_tokens_G {rest word : List Char} {ts : List Token}
    (h : tokens ('G' :: rest) = ⟨.command, 'G' :: word⟩ :: ts) :
    rest.takeWhile isNumberCharacter = word := by
  rw [tokens_G] at h
  have htext := congrArg Token.text (List.cons.inj h).1
  exact (List.cons.inj htext).2

theorem beginsWithMoveWord_iff {line : List Char} :
    BeginsWithMoveWord line ↔ ∃ number tail, line = 'G' :: (number ++ tail) ∧
      IsMoveNumber number ∧ StopsRun isNumberCharacter tail := by
  constructor
  · rintro ⟨number, ts, htokens, ⟨tail, rfl⟩, hnumber⟩
    rw [List.cons_append] at htokens
    have htake := takeWhile_of_tokens_G htokens
    have hdrop : (number ++ tail).dropWhile isNumberCharacter = tail := by
      have happend := List.takeWhile_append_dropWhile (p := isNumberCharacter) (l := number ++ tail)
      rw [htake] at happend
      exact List.append_cancel_left happend
    exact ⟨number, tail, rfl, hnumber, hdrop ▸ stopsRun_dropWhile _ (number ++ tail)⟩
  · rintro ⟨number, tail, rfl, hnumber, hstop⟩
    have hrun := hnumber.isNumberCharacter
    refine ⟨number, tokens tail, ?_, ⟨tail, rfl⟩, hnumber⟩
    rw [tokens_G, takeWhile_run hrun hstop, dropWhile_run hrun hstop]

/-! ## Where the two disagree -/

/-- A sign behind the code belongs to the first word, so that word has another number. -/
theorem not_beginsWithMoveWord_of_sign {line : List Char} (h : SignFollowsCode line) :
    ¬ BeginsWithMoveWord line := by
  obtain ⟨number, sign, rest, rfl, hnumber, hsign⟩ := h
  rintro ⟨word, ts, htokens, -, hword⟩
  have hnum : isNumberCharacter sign = true := isNumberCharacter_iff.mpr (Or.inr (Or.inr hsign))
  have hmem : sign ∈ word := by
    rw [← takeWhile_of_tokens_G htokens, List.takeWhile_append_of_pos hnumber.isNumberCharacter,
      List.takeWhile_cons_of_pos hnum]
    exact List.mem_append_right number List.mem_cons_self
  have hdigit := hword.2.1 sign hmem
  rcases hsign with rfl | rfl <;> exact absurd hdigit (by decide)

/-- **A line is a linear move if its first word says so, or if a sign follows the code.** -/
theorem isLinearMove_iff_word_or_sign {line : List Char} :
    isLinearMove line = true ↔ BeginsWithMoveWord line ∨ SignFollowsCode line := by
  rw [isLinearMove_iff, beginsWithMoveWord_iff]
  constructor
  · rintro ⟨number, tail, rfl, hnumber, hstop, hpoint⟩
    cases tail with
    | nil => exact Or.inl ⟨number, [], rfl, hnumber, stopsRun_nil⟩
    | cons c rest =>
      by_cases hc : isNumberCharacter c = true
      · rcases isNumberCharacter_iff.mp hc with hdigit | rfl | hsign
        · exact absurd hdigit (by rw [stopsRun_cons.mp hstop]; decide)
        · exact absurd rfl hpoint
        · exact Or.inr ⟨number, c, rest, rfl, hnumber, hsign⟩
      · exact Or.inl ⟨number, c :: rest, rfl, hnumber,
          stopsRun_cons.mpr (Bool.eq_false_iff.mpr hc)⟩
  · rintro (⟨number, tail, rfl, hnumber, hstop⟩ | ⟨number, sign, rest, rfl, hnumber, hsign⟩)
    · exact ⟨number, tail, rfl, hnumber, stopsRun_isDigit hstop, head?_ne_point hstop⟩
    · refine ⟨number, sign :: rest, rfl, hnumber, stopsRun_cons.mpr ?_, ?_⟩
      · rcases hsign with rfl | rfl <;> rfl
      · rcases hsign with rfl | rfl <;> simp

/-- **The code at the start of a line and its first word disagree exactly when a sign
follows the code**, and then the line is a linear move. -/
theorem isLinearMove_and_first_word (line : List Char) :
    (isLinearMove line = true ↔ BeginsWithMoveWord line ∨ SignFollowsCode line) ∧
      ((isLinearMove line = true ↔ BeginsWithMoveWord line) ↔ ¬ SignFollowsCode line) := by
  refine ⟨isLinearMove_iff_word_or_sign, ?_⟩
  rw [isLinearMove_iff_word_or_sign]
  constructor
  · intro h hsign
    exact not_beginsWithMoveWord_of_sign hsign (h.mp (Or.inr hsign))
  · intro hsign
    exact ⟨fun h => h.resolve_right hsign, Or.inl⟩

/-- With a sign behind the one, the line is a linear move whose first word is another code. -/
theorem isLinearMove_one_minus_five :
    isLinearMove "G1-5".toList = true ∧ ¬ BeginsWithMoveWord "G1-5".toList := by
  refine ⟨by decide, not_beginsWithMoveWord_of_sign ⟨['1'], '-', ['5'], rfl, ?_, Or.inr rfl⟩⟩
  refine ⟨List.cons_ne_nil _ _, fun c hc => ?_, by decide⟩
  rw [List.mem_singleton.mp hc]
  rfl

end PrintJob

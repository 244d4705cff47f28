/-
# Tokens of a G-code line

A line is made of *words* and *comments*. A word is one ASCII letter and the run
of digits, points and signs after it, so words need no blanks between them. A
comment runs from a semicolon to the end of the line, or from an opening
parenthesis through the next closing one. All other characters are skipped.

* `tokens`: the tokens of a line in order.
* `cutComment_append`: cutting a comment off loses nothing.
-/

namespace PrintJob

/-- What a token is: a word that names a command, a word that carries a value, or
a comment. -/
inductive TokenKind where
  | command
  | parameter
  | comment
deriving DecidableEq

/-- A token with its text as it stands in the line. -/
structure Token where
  kind : TokenKind
  text : List Char
deriving DecidableEq

/-! ## Characters -/

/-- Whether a character can continue the number of a word. -/
def isNumberCharacter (c : Char) : Bool :=
  c.isDigit || c == '.' || c == '-' || c == '+'

/-- Only ASCII characters continue a number. -/
theorem toNat_lt_of_isNumberCharacter {c : Char} (h : isNumberCharacter c = true) :
    c.toNat < 128 := by
  simp only [isNumberCharacter, Bool.or_eq_true, beq_iff_eq] at h
  rcases h with ((h | rfl) | rfl) | rfl
  · have hle : c.toNat ≤ '9'.toNat := of_decide_eq_true (Bool.and_eq_true_iff.mp h).2
    exact Nat.lt_of_le_of_lt hle (by decide)
  all_goals decide

/-- Whether a letter names commands. -/
def isCommandLetter (c : Char) : Bool :=
  c.toUpper == 'G' || c.toUpper == 'M' || c.toUpper == 'T'

/-- The kind of the words that begin with a letter. -/
def wordKind (letter : Char) : TokenKind :=
  if isCommandLetter letter then .command else .parameter

/-! ## Splitting a line -/

/-- Splits after the first closing parenthesis, or at the end if there is none. -/
def cutComment : List Char → List Char × List Char
  | [] => ([], [])
  | c :: rest =>
    if c = ')' then ([c], rest)
    else
      let (inside, after) := cutComment rest
      (c :: inside, after)

theorem cutComment_append (cs : List Char) : (cutComment cs).1 ++ (cutComment cs).2 = cs := by
  induction cs with
  | nil => rfl
  | cons c rest ih =>
    rw [cutComment]
    split <;> simp [ih]

theorem length_cutComment_le (cs : List Char) : (cutComment cs).2.length ≤ cs.length := by
  have h := congrArg List.length (cutComment_append cs)
  rw [List.length_append] at h
  omega

theorem length_dropWhile_le (p : Char → Bool) (cs : List Char) :
    (cs.dropWhile p).length ≤ cs.length :=
  (List.dropWhile_suffix p).length_le

/-- The tokens of a line. -/
def tokens : List Char → List Token
  | [] => []
  | c :: rest =>
    if c = ';' then
      [⟨.comment, c :: rest⟩]
    else if c = '(' then
      ⟨.comment, c :: (cutComment rest).1⟩ :: tokens (cutComment rest).2
    else if c.isAlpha then
      ⟨wordKind c, c :: rest.takeWhile isNumberCharacter⟩ ::
        tokens (rest.dropWhile isNumberCharacter)
    else
      tokens rest
termination_by cs => cs.length
decreasing_by
  · exact Nat.lt_succ_of_le (length_cutComment_le rest)
  · exact Nat.lt_succ_of_le (length_dropWhile_le _ rest)
  · exact Nat.lt_succ_self _

/-! ## One step of splitting -/

@[simp]
theorem tokens_nil : tokens [] = [] := by rw [tokens]

theorem tokens_semicolon (rest : List Char) : tokens (';' :: rest) = [⟨.comment, ';' :: rest⟩] := by
  rw [tokens]
  simp

theorem tokens_open (rest : List Char) :
    tokens ('(' :: rest) =
      ⟨.comment, '(' :: (cutComment rest).1⟩ :: tokens (cutComment rest).2 := by
  rw [tokens]
  simp

/-- A letter is neither of the characters that open a comment. -/
theorem ne_of_isAlpha {c : Char} (h : c.isAlpha = true) : c ≠ ';' ∧ c ≠ '(' := by
  constructor <;> rintro rfl <;> exact absurd h (by decide)

theorem tokens_letter {c : Char} (h : c.isAlpha = true) (rest : List Char) :
    tokens (c :: rest) =
      ⟨wordKind c, c :: rest.takeWhile isNumberCharacter⟩ ::
        tokens (rest.dropWhile isNumberCharacter) := by
  rw [tokens, if_neg (ne_of_isAlpha h).1, if_neg (ne_of_isAlpha h).2, if_pos h]

theorem tokens_skip {c : Char} (hs : c ≠ ';') (ho : c ≠ '(') (ha : c.isAlpha = false)
    (rest : List Char) : tokens (c :: rest) = tokens rest := by
  rw [tokens, if_neg hs, if_neg ho, if_neg (by simp [ha])]

end PrintJob

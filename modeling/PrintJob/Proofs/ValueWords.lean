/-
# The values of a command

The parameters of a command are the words of its line that have something behind their letter,
apart from the words with the letter of a command. They come in the order of the line, and their
values are the runs of digits, points and signs behind the letters (`ValuesInOrder`).

So the value of a parameter is written with few characters, and it has a number exactly if it is a
plain number with an optional sign and not too large for a finite double
(`Parameter.isSome_number_iff`). Exponents and the names of special values need letters, and a
letter begins the next word (`Line.values_of_command`).
-/
import PrintJob.Proofs.FirstWords
import PrintJob.Proofs.PlainNumbers

namespace PrintJob

/-! ## Words with a value -/

/-- The token is the word of this parameter: a letter that names no commands, with a value behind
it. -/
structure Token.IsValueWord (t : Token) (p : Parameter) : Prop where
  gives : t.Gives p.letter p.value
  isAlpha : p.letter.isAlpha = true
  not_mem : p.letter ∉ commandLetters

/-- The parameters are those of the tokens that are words with a value, one after another. -/
inductive ValuesInOrder : List Token → List Parameter → Prop
  | nil : ValuesInOrder [] []
  | word {t : Token} {p : Parameter} {ts : List Token} {ps : List Parameter}
      (h : t.IsValueWord p) (rest : ValuesInOrder ts ps) : ValuesInOrder (t :: ts) (p :: ps)
  | other {t : Token} {ts : List Token} {ps : List Parameter}
      (h : ∀ p, ¬ t.IsValueWord p) (rest : ValuesInOrder ts ps) : ValuesInOrder (t :: ts) ps

/-- The letter of a parameter is not that of a command. -/
theorem IsToken.letter_not_mem {t : Token} {rest : List Char} (ht : IsToken t rest)
    {p : Parameter} (h : Parameter.ofToken t = some p) : p.letter ∉ commandLetters := by
  rw [Parameter.ofToken] at h
  split at h
  · rename_i hkind
    have hparameter : t.kind = .parameter := eq_of_beq hkind
    obtain ⟨letter, run, -, rfl⟩ := ht.exists_word (by rw [hparameter]; exact TokenKind.noConfusion)
    obtain ⟨rfl, -⟩ := List.cons.inj (Parameter.ofText_eq_some_iff.mp h).1
    intro hmem
    rw [if_pos hmem] at hparameter
    cases hparameter
  · cases h

/-- Behind the letter of a word there are only digits, points and signs. -/
theorem IsToken.isNumberCharacter {t : Token} {rest : List Char} (ht : IsToken t rest)
    {letter : Char} {run : List Char} (h : t.Gives letter run) :
    ∀ c ∈ run, isNumberCharacter c = true := by
  cases ht with
  | semicolon _ => exact absurd rfl h.kind_ne
  | closed _ _ => exact absurd rfl h.kind_ne
  | unclosed _ => exact absurd rfl h.kind_ne
  | word _ hrun _ =>
    obtain ⟨-, rfl⟩ := List.cons.inj h.text_eq
    exact hrun

theorem ofToken_eq_some_iff_isValueWord {line : List Char} {t : Token} (ht : t ∈ tokens line)
    (p : Parameter) : Parameter.ofToken t = some p ↔ t.IsValueWord p := by
  obtain ⟨-, rest, -, htoken⟩ := exists_place_of_mem_tokens ht
  constructor
  · intro h
    have hletter := htoken.letter_not_mem h
    have hgives : t.Gives p.letter p.value := (Parameter.ofToken_eq_some_iff htoken hletter).mp h
    obtain ⟨letter, run, halpha, rfl⟩ := htoken.exists_word hgives.kind_ne
    obtain ⟨rfl, -⟩ := List.cons.inj hgives.text_eq
    exact ⟨hgives, halpha, hletter⟩
  · intro h
    exact (Parameter.ofToken_eq_some_iff htoken h.not_mem).mpr h.gives

/-- Tokens have the parameters that are taken from them, and no others. -/
theorem valuesInOrder_iff {ts : List Token}
    (h : ∀ t ∈ ts, ∀ p, Parameter.ofToken t = some p ↔ t.IsValueWord p) (ps : List Parameter) :
    ValuesInOrder ts ps ↔ ps = parametersOf ts := by
  rw [parametersOf_eq_filterMap]
  induction ts generalizing ps with
  | nil =>
    constructor
    · intro hps
      cases hps
      rfl
    · rintro rfl
      exact .nil
  | cons t ts ih =>
    have ht := h t List.mem_cons_self
    have hrest := ih fun u hu => h u (List.mem_cons_of_mem t hu)
    cases hparameter : Parameter.ofToken t with
    | none =>
      have hother : ∀ p, ¬ t.IsValueWord p := fun p hp => by
        rw [← ht p, hparameter] at hp
        cases hp
      rw [List.filterMap_cons_none hparameter, ← hrest ps]
      constructor
      · intro hps
        cases hps with
        | word hp _ => exact absurd hp (hother _)
        | other _ hps => exact hps
      · intro hps
        exact .other hother hps
    | some p =>
      have hword := (ht p).mp hparameter
      rw [List.filterMap_cons_some hparameter]
      constructor
      · intro hps
        cases hps with
        | word hp hps =>
          have hsame := (ht _).mpr hp
          rw [hparameter] at hsame
          rw [← Option.some.inj hsame, (hrest _).mp hps]
        | other hnone _ => exact absurd hword (hnone p)
      · rintro rfl
        exact .word hword ((hrest _).mpr rfl)

/-! ## Numbers of values -/

/-- **A value over digits, points and signs has a number** exactly if it is a signed plain number
that is not too large. -/
theorem Parameter.isSome_number_iff {p : Parameter}
    (h : ∀ c ∈ p.value, isNumberCharacter c = true) :
    p.number.isSome = true ↔ ∃ negative n, IsSigned p.value negative n ∧ ¬ n.Overflows := by
  rw [Option.isSome_iff_exists]
  constructor
  · rintro ⟨x, hx⟩
    obtain ⟨hread, hfinite⟩ := Option.filter_eq_some_iff.mp hx
    obtain ⟨negative, n, hn, rfl⟩ := (Binary64.read_eq_some_iff h).mp hread
    exact ⟨negative, n, hn, (n.isFinite_nearest_iff negative).mp hfinite⟩
  · rintro ⟨negative, n, hn, hrange⟩
    refine ⟨n.nearest negative, Option.filter_eq_some_iff.mpr ⟨hn.read, ?_⟩⟩
    exact (n.isFinite_nearest_iff negative).mpr hrange

/-! ## The parameters of a line -/

theorem parameters_of_parse {line : List Char} {command : Command}
    (h : Line.parse line = .command command) : command.parameters = parametersOf (tokens line) := by
  rw [Line.parse, Line.ofTokens] at h
  split at h
  · cases h
    rfl
  · split at h <;> cases h

/-- **The values of a command are written with digits, points and signs.** The parameters of a
command are, in order, the words of the line outside comments that have a letter of no command
and a value behind it. Their values are read only if they are plain numbers with an optional sign,
and they have a number exactly if such a number is not too large for a finite double. -/
theorem Line.values_of_command (line : List Char) (command : Command)
    (h : Line.parse line = .command command) :
    (∀ ps, (∃ cut : Cut, cut.IsValid ∧ cut.line = line ∧ ValuesInOrder cut.tokens ps) ↔
        ps = command.parameters) ∧
      ∀ p ∈ command.parameters,
        (∀ c ∈ p.value, isNumberCharacter c = true) ∧
        (∀ x, Binary64.read p.value = some x ↔
          ∃ negative n, IsSigned p.value negative n ∧ x = n.nearest negative) ∧
        (p.number.isSome = true ↔
          ∃ negative n, IsSigned p.value negative n ∧ ¬ n.Overflows) := by
  rw [parameters_of_parse h]
  have hvalues : ∀ ps, ValuesInOrder (tokens line) ps ↔ ps = parametersOf (tokens line) :=
    valuesInOrder_iff fun t ht p => ofToken_eq_some_iff_isValueWord ht p
  constructor
  · intro ps
    rw [← hvalues ps]
    constructor
    · rintro ⟨cut, hvalid, rfl, hps⟩
      rwa [Cut.tokens_line hvalid]
    · intro hps
      obtain ⟨cut, hvalid, rfl⟩ := exists_cut line
      rw [Cut.tokens_line hvalid] at hps
      exact ⟨cut, hvalid, rfl, hps⟩
  · intro p hp
    rw [parametersOf_eq_filterMap] at hp
    obtain ⟨t, ht, hparameter⟩ := List.mem_filterMap.mp hp
    obtain ⟨-, rest, -, htoken⟩ := exists_place_of_mem_tokens ht
    have hword := (ofToken_eq_some_iff_isValueWord ht p).mp hparameter
    have hrun := htoken.isNumberCharacter hword.gives
    exact ⟨hrun, fun _ => Binary64.read_eq_some_iff hrun, Parameter.isSome_number_iff hrun⟩

/-- An exponent is the word behind; a value that starts with a sign and a point has a number, and
a sign alone or a point alone has none. -/
theorem Line.values_of_packed_line :
    let line := "G1X1E5(Y9)X+.5 X-x.;Z1".toList
    let command : Command := ⟨"G1".toList, [⟨'X', ['1']⟩, ⟨'E', ['5']⟩, ⟨'X', "+.5".toList⟩,
      ⟨'X', ['-']⟩, ⟨'x', ['.']⟩], some "Y9".toList⟩
    Line.parse line = .command command ∧
      (∃ cut : Cut, cut.IsValid ∧ cut.line = line ∧
        ValuesInOrder cut.tokens command.parameters) ∧
      (∃ negative n, IsSigned "+.5".toList negative n ∧ ¬ n.Overflows) ∧
      (¬ ∃ negative n, IsSigned ['-'] negative n ∧ ¬ n.Overflows) ∧
      ¬ ∃ negative n, IsSigned ['.'] negative n ∧ ¬ n.Overflows := by
  intro line command
  have hparse : Line.parse line = .command command := by decide +kernel
  obtain ⟨hwords, hnumbers⟩ := Line.values_of_command line command hparse
  have hnumber : ∀ p ∈ command.parameters, p.number.isSome = true ↔
      ∃ negative n, IsSigned p.value negative n ∧ ¬ n.Overflows := fun p hp => (hnumbers p hp).2.2
  have hhalf := hnumber ⟨'X', "+.5".toList⟩ (by decide)
  have hsign := hnumber ⟨'X', ['-']⟩ (by decide)
  have hpoint := hnumber ⟨'x', ['.']⟩ (by decide)
  exact ⟨hparse, (hwords _).mpr rfl, hhalf.mp (by decide +kernel),
    fun h => absurd (hsign.mpr h) (by decide +kernel),
    fun h => absurd (hpoint.mpr h) (by decide +kernel)⟩

end PrintJob

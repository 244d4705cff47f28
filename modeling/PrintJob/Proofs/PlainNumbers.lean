/-
# Numbers without an exponent

A *plain number* is a run of digits with at most one point among or around them, and with at
least one digit in all (`PlainNumber`). The words of a line and the facts in its comments have
numbers of this form. Their text is read as the double nearest to their value
(`IsSigned.read`), and that double is finite exactly if the value is below the middle
between the largest finite double and the power of two behind it
(`PlainNumber.isFinite_nearest_iff`). No text without letters is read in another way
(`Decimal.exists_plainNumber`).
-/
import PrintJob.Proofs.DigitRun
import PrintJob.Proofs.FiniteRange
import PrintJob.Token

namespace PrintJob

/-! ## Digits and a point -/

/-- A point and the digits behind it, if there is a point. -/
def pointAnd : Option (List Char) → List Char
  | some ds => '.' :: ds
  | none => []

/-- The digits behind the point that a text begins with, if it begins with one. -/
def fractionOf : List Char → Option (List Char)
  | '.' :: rest => some (rest.takeWhile Char.isDigit)
  | _ => none

theorem stopsRun_pointAnd (fraction : Option (List Char)) :
    StopsRun Char.isDigit (pointAnd fraction) := by
  cases fraction with
  | none => exact stopsRun_nil
  | some ds => exact stopsRun_cons.mpr rfl

theorem isDigit_of_mem_fractionOf {c : Char} {cs : List Char}
    (h : c ∈ (fractionOf cs).getD []) : c.isDigit = true := by
  unfold fractionOf at h
  split at h
  · exact of_mem_takeWhile h
  · cases h

theorem fractionOf_pointAnd {fraction : Option (List Char)}
    (h : ∀ c ∈ fraction.getD [], c.isDigit = true) : fractionOf (pointAnd fraction) = fraction := by
  cases fraction with
  | none => rfl
  | some ds =>
    have htake := takeWhile_run h stopsRun_nil
    rw [List.append_nil] at htake
    exact congrArg some htake

theorem fractionOf_of_ne {cs : List Char} (h : ∀ rest, cs ≠ '.' :: rest) :
    fractionOf cs = none := by
  unfold fractionOf
  split
  · exact absurd rfl (h _)
  · rfl

theorem splitFraction_eq (cs : List Char) :
    (Decimal.splitFraction cs).1 = (fractionOf cs).getD [] ∧
      pointAnd (fractionOf cs) ++ (Decimal.splitFraction cs).2 = cs := by
  unfold Decimal.splitFraction
  split
  · refine ⟨rfl, ?_⟩
    show '.' :: (_ ++ _) = _
    rw [List.takeWhile_append_dropWhile]
  · rename_i h
    rw [fractionOf_of_ne h]
    exact ⟨rfl, rfl⟩

/-! ## Plain numbers -/

/-- Digits with at most one point among or around them. -/
structure PlainNumber where
  whole : List Char
  /-- The digits behind the point, if there is a point. -/
  fraction : Option (List Char)
  isDigit_whole : ∀ c ∈ whole, c.isDigit = true
  isDigit_fraction : ∀ c ∈ fraction.getD [], c.isDigit = true
  ne_nil : whole ++ fraction.getD [] ≠ []

namespace PlainNumber

def text (n : PlainNumber) : List Char := n.whole ++ pointAnd n.fraction

/-- The number of digits behind the point. -/
def places (n : PlainNumber) : Nat := (n.fraction.getD []).length

/-- The value without regard to the point. -/
def coefficient (n : PlainNumber) : Nat := ofDigits (n.whole ++ n.fraction.getD [])

/-- The double nearest to the value with the given sign. -/
def nearest (n : PlainNumber) (negative : Bool) : Binary64 :=
  .nearest negative (n.coefficient * Magnitude.one) (10 ^ n.places)

/-- The value is too large for a finite double. -/
def Overflows (n : PlainNumber) : Prop := overflowBound * 10 ^ n.places ≤ n.coefficient

instance (n : PlainNumber) : Decidable n.Overflows := inferInstanceAs (Decidable (_ ≤ _))

theorem isFinite_nearest_iff (n : PlainNumber) (negative : Bool) :
    (n.nearest negative).isFinite = true ↔ ¬ n.Overflows := by
  rw [Overflows, ← Magnitude.nearest_pow_ten_eq_none_iff, nearest, Binary64.nearest]
  cases Magnitude.nearest (n.coefficient * Magnitude.one) (10 ^ n.places) with
  | none => simp [Binary64.isFinite]
  | some m => simp [Binary64.isFinite]

/-- A value that is too large becomes the infinity of its sign. -/
theorem nearest_eq_infinite_iff (n : PlainNumber) (negative : Bool) :
    n.nearest negative = .infinite negative ↔ n.Overflows := by
  rw [Overflows, ← Magnitude.nearest_pow_ten_eq_none_iff, nearest, Binary64.nearest]
  cases Magnitude.nearest (n.coefficient * Magnitude.one) (10 ^ n.places) with
  | none => simp
  | some m => simp

/-! ## Reading plain numbers -/

/-- The number begins with a digit or a point. -/
theorem head?_text {n : PlainNumber} {c : Char} (h : n.text.head? = some c) :
    c.isDigit = true ∨ c = '.' := by
  unfold text at h
  cases hwhole : n.whole with
  | cons d ds =>
    rw [hwhole] at h
    obtain rfl := Option.some.inj h
    exact Or.inl (n.isDigit_whole d (hwhole ▸ List.mem_cons_self))
  | nil =>
    rw [hwhole, List.nil_append] at h
    cases hfraction : n.fraction with
    | none =>
      rw [hfraction] at h
      cases h
    | some ds =>
      rw [hfraction] at h
      exact Or.inr (Option.some.inj h).symm

theorem decimalRead_text (n : PlainNumber) :
    Decimal.read n.text = some ⟨n.coefficient, -(n.places : Int)⟩ := by
  have hstop := stopsRun_pointAnd n.fraction
  have hne : (n.whole.isEmpty && (n.fraction.getD []).isEmpty) = false := by
    rw [← Bool.not_eq_true, Bool.and_eq_true, List.isEmpty_iff, List.isEmpty_iff,
      ← List.append_eq_nil_iff]
    exact n.ne_nil
  have hfraction := fractionOf_pointAnd n.isDigit_fraction
  obtain ⟨hsplit, hrest⟩ := splitFraction_eq (pointAnd n.fraction)
  rw [hfraction] at hsplit hrest
  have hnil : (Decimal.splitFraction (pointAnd n.fraction)).2 = [] :=
    List.append_right_eq_self.mp hrest
  simp only [Decimal.read, text, takeWhile_run n.isDigit_whole hstop,
    dropWhile_run n.isDigit_whole hstop, hsplit, hnil, hne]
  simp [Decimal.readScale, coefficient, places]

/-- The number that a text begins with, if there is a digit in it. -/
def atStart (cs : List Char)
    (h : cs.takeWhile Char.isDigit ++ (fractionOf (cs.dropWhile Char.isDigit)).getD [] ≠ []) :
    PlainNumber where
  whole := cs.takeWhile Char.isDigit
  fraction := fractionOf (cs.dropWhile Char.isDigit)
  isDigit_whole _ := of_mem_takeWhile
  isDigit_fraction _ := isDigit_of_mem_fractionOf
  ne_nil := h

theorem text_atStart_append (cs : List Char)
    (h : cs.takeWhile Char.isDigit ++ (fractionOf (cs.dropWhile Char.isDigit)).getD [] ≠ []) :
    (atStart cs h).text ++ (Decimal.splitFraction (cs.dropWhile Char.isDigit)).2 = cs := by
  show cs.takeWhile Char.isDigit ++ pointAnd (fractionOf (cs.dropWhile Char.isDigit)) ++ _ = cs
  rw [List.append_assoc, (splitFraction_eq _).2, List.takeWhile_append_dropWhile]

end PlainNumber

/-- A text without the mark of an exponent is read as a decimal only if it is a plain number. -/
theorem Decimal.exists_plainNumber {cs : List Char} (h : ∀ c ∈ cs, c ≠ 'e' ∧ c ≠ 'E')
    {d : Decimal} (hread : Decimal.read cs = some d) : ∃ n : PlainNumber, n.text = cs := by
  simp only [Decimal.read] at hread
  split at hread
  · cases hread
  · rename_i hne
    rw [(splitFraction_eq _).1, Bool.and_eq_true, List.isEmpty_iff, List.isEmpty_iff,
      ← List.append_eq_nil_iff] at hne
    have htext := PlainNumber.text_atStart_append cs hne
    have hnil : (Decimal.splitFraction (cs.dropWhile Char.isDigit)).2 = [] := by
      obtain ⟨scale, hscale, -⟩ := Option.map_eq_some_iff.mp hread
      cases hbehind : (Decimal.splitFraction (cs.dropWhile Char.isDigit)).2 with
      | nil => rfl
      | cons c rest =>
        rw [hbehind] at hscale htext
        have hmem : c ∈ cs := htext ▸ List.mem_append_right _ List.mem_cons_self
        rw [Decimal.readScale, if_neg (not_or.mpr (h c hmem))] at hscale
        cases hscale
    rw [hnil, List.append_nil] at htext
    exact ⟨PlainNumber.atStart cs hne, htext⟩

/-! ## Signs -/

/-- The texts in front of a number that give it its sign. -/
inductive IsSign : List Char → Bool → Prop
  | none : IsSign [] false
  | plus : IsSign ['+'] false
  | minus : IsSign ['-'] true

/-- The text is the plain number, with an optional sign in front. -/
def IsSigned (cs : List Char) (negative : Bool) (n : PlainNumber) : Prop :=
  ∃ sign, IsSign sign negative ∧ cs = sign ++ n.text

theorem isSigned_text (n : PlainNumber) : IsSigned n.text false n := ⟨[], .none, rfl⟩

theorem splitSign_eq (cs : List Char) :
    ∃ sign, IsSign sign (Decimal.splitSign cs).1 ∧ cs = sign ++ (Decimal.splitSign cs).2 := by
  unfold Decimal.splitSign
  split
  · exact ⟨_, .minus, rfl⟩
  · exact ⟨_, .plus, rfl⟩
  · exact ⟨_, .none, rfl⟩

/-- A plain number has no sign of its own. -/
theorem splitSign_text (n : PlainNumber) : Decimal.splitSign n.text = (false, n.text) := by
  have hhead := fun c => PlainNumber.head?_text (n := n) (c := c)
  unfold Decimal.splitSign
  split
  · rename_i h
    rw [h] at hhead
    exact absurd (hhead '-' rfl) (by decide)
  · rename_i h
    rw [h] at hhead
    exact absurd (hhead '+' rfl) (by decide)
  · rfl

/-- **A signed number is read as the double nearest to its value.** -/
theorem IsSigned.read {cs : List Char} {negative : Bool} {n : PlainNumber}
    (h : IsSigned cs negative n) : Binary64.read cs = some (n.nearest negative) := by
  obtain ⟨sign, hsign, rfl⟩ := h
  have hsplit : Decimal.splitSign (sign ++ n.text) = (negative, n.text) := by
    cases hsign with
    | none => exact splitSign_text n
    | plus => rfl
    | minus => rfl
  simp only [Binary64.read, hsplit, n.decimalRead_text, Decimal.toBinary64_eq_nearest]
  rfl

/-! ## Texts over digits, points and signs -/

/-- No special value is named by digits, points and signs. -/
theorem toLower_ne {c : Char} (h : isNumberCharacter c = true) :
    c.toLower ≠ 'i' ∧ c.toLower ≠ 'n' :=
  of_ascii (P := fun c => isNumberCharacter c = true → c.toLower ≠ 'i' ∧ c.toLower ≠ 'n')
    (by decide) (toNat_lt_of_isNumberCharacter h) h

theorem ofName_eq_none {cs : List Char} (h : ∀ c ∈ cs, isNumberCharacter c = true)
    (negative : Bool) : Binary64.ofName negative (cs.map Char.toLower) = none := by
  cases cs with
  | nil => rfl
  | cons c rest =>
    obtain ⟨hi, hn⟩ := toLower_ne (h c List.mem_cons_self)
    have hinf : (c :: rest).map Char.toLower ≠ "inf".toList := fun heq => hi (List.cons.inj heq).1
    have hinfinity : (c :: rest).map Char.toLower ≠ "infinity".toList := fun heq =>
      hi (List.cons.inj heq).1
    have hnan : (c :: rest).map Char.toLower ≠ "nan".toList := fun heq => hn (List.cons.inj heq).1
    rw [Binary64.ofName, if_neg (not_or.mpr ⟨hinf, hinfinity⟩), if_neg hnan]

/-- **Over digits, points and signs only signed plain numbers are read**: neither an exponent nor
the name of a special value can be written with these characters. -/
theorem Binary64.read_eq_some_iff {cs : List Char} (h : ∀ c ∈ cs, isNumberCharacter c = true)
    {x : Binary64} :
    read cs = some x ↔ ∃ negative n, IsSigned cs negative n ∧ x = n.nearest negative := by
  constructor
  · intro hread
    obtain ⟨sign, hsign, hcs⟩ := splitSign_eq cs
    have hunsigned : ∀ c ∈ (Decimal.splitSign cs).2, isNumberCharacter c = true := fun c hc =>
      h c (hcs ▸ List.mem_append_right sign hc)
    have hsigned : ∃ n : PlainNumber, n.text = (Decimal.splitSign cs).2 := by
      cases hdecimal : Decimal.read (Decimal.splitSign cs).2 with
      | none =>
        simp only [read, hdecimal, ofName_eq_none hunsigned] at hread
        cases hread
      | some d =>
        refine Decimal.exists_plainNumber ?_ hdecimal
        intro c hc
        constructor <;> rintro rfl <;> exact absurd (hunsigned _ hc) (by decide)
    obtain ⟨n, hn⟩ := hsigned
    have hnumber : IsSigned cs (Decimal.splitSign cs).1 n := ⟨sign, hsign, hn.symm ▸ hcs⟩
    rw [hnumber.read] at hread
    exact ⟨_, n, hnumber, (Option.some.inj hread).symm⟩
  · rintro ⟨negative, n, hnumber, rfl⟩
    exact hnumber.read

end PrintJob

/-
# The first number in a text

A number begins with a digit, or with a point before a digit, and goes on with digits and
at most one point. Both ends can be seen from what stands next to the number: `InFront`
says that no number begins earlier, `EndsNumber` that this one does not go on. The first
number of a text is the plain number between the two (`IsFirstNumber`), and it is read as
the double nearest to its value, however many digits it has (`firstNumber_eq_some_iff`).
-/
import PrintJob.Declaration
import PrintJob.Proofs.PlainNumbers

namespace PrintJob

/-! ## Where a number begins -/

/-- A number begins with a digit, or with a point before one. -/
theorem startsNumber_cons_iff {c : Char} {cs : List Char} :
    startsNumber (c :: cs) = true ↔ c.isDigit = true ∨ c = '.' ∧ ¬ StopsRun Char.isDigit cs := by
  by_cases hpoint : c = '.'
  · subst hpoint
    have hdigit : ¬ '.'.isDigit = true := by decide
    cases cs with
    | nil => simp [startsNumber, stopsRun_nil, hdigit]
    | cons d ds => simp [startsNumber, stopsRun_cons, hdigit]
  · simp [startsNumber, hpoint]

theorem startsNumber_cons_eq_false_iff {c : Char} {cs : List Char} :
    startsNumber (c :: cs) = false ↔
      c.isDigit = false ∧ (c = '.' → StopsRun Char.isDigit cs) := by
  rw [← Bool.not_eq_true, startsNumber_cons_iff, not_or, Bool.not_eq_true, not_and,
    Classical.not_not]

/-- Nothing in `front` is part of a number, not even of one that begins with `rest`. -/
structure InFront (front rest : List Char) : Prop where
  no_digit : ∀ c ∈ front, c.isDigit = false
  /-- A point before a digit would begin the number. -/
  no_point : front.getLast? = some '.' → StopsRun Char.isDigit rest

theorem inFront_nil (rest : List Char) : InFront [] rest where
  no_digit _ h := by cases h
  no_point h := by cases h

/-- One character more may stand in front if no number begins with it. -/
theorem inFront_cons_iff {c : Char} {front rest : List Char} :
    InFront (c :: front) rest ↔
      startsNumber (c :: (front ++ rest)) = false ∧ InFront front rest := by
  rw [startsNumber_cons_eq_false_iff]
  cases front with
  | nil =>
    constructor
    · intro h
      refine ⟨⟨h.no_digit c List.mem_cons_self, ?_⟩, inFront_nil rest⟩
      rintro rfl
      exact h.no_point rfl
    · rintro ⟨⟨hdigit, hpoint⟩, -⟩
      exact ⟨List.forall_mem_singleton.mpr hdigit, fun h => hpoint (Option.some.inj h)⟩
  | cons d front =>
    constructor
    · intro h
      obtain ⟨hc, hfront⟩ := List.forall_mem_cons.mp h.no_digit
      refine ⟨⟨hc, fun _ => stopsRun_cons.mpr (hfront d List.mem_cons_self)⟩, hfront, ?_⟩
      exact fun hlast => h.no_point (List.getLast?_cons_cons.trans hlast)
    · rintro ⟨⟨hc, -⟩, hfront⟩
      refine ⟨List.forall_mem_cons.mpr ⟨hc, hfront.no_digit⟩, ?_⟩
      exact fun hlast => hfront.no_point (List.getLast?_cons_cons.symm.trans hlast)

/-- The search stops at the first place where a number begins. -/
theorem fromNumber_eq_some_iff {cs rest : List Char} :
    fromNumber cs = some rest ↔
      startsNumber rest = true ∧ ∃ front, cs = front ++ rest ∧ InFront front rest := by
  constructor
  · intro h
    induction cs with
    | nil => cases h
    | cons c cs ih =>
      rw [fromNumber] at h
      by_cases hstarts : startsNumber (c :: cs) = true
      · rw [if_pos hstarts] at h
        obtain rfl := Option.some.inj h
        exact ⟨hstarts, [], rfl, inFront_nil _⟩
      · rw [if_neg hstarts] at h
        obtain ⟨hrest, front, rfl, hfront⟩ := ih h
        exact ⟨hrest, c :: front, rfl,
          inFront_cons_iff.mpr ⟨Bool.eq_false_iff.mpr hstarts, hfront⟩⟩
  · rintro ⟨hrest, front, rfl, hfront⟩
    induction front with
    | nil =>
      cases rest with
      | nil => cases hrest
      | cons c cs => exact if_pos hrest
    | cons c front ih =>
      obtain ⟨hc, hfront⟩ := inFront_cons_iff.mp hfront
      rw [List.cons_append, fromNumber, hc, ← ih hfront]
      rfl

/-! ## Where a number ends -/

/-- The number does not go on with what stands behind it. -/
structure EndsNumber (n : PlainNumber) (back : List Char) : Prop where
  no_digit : StopsRun Char.isDigit back
  /-- One point is part of the number, a second one is not. -/
  no_point : n.fraction = none → back.head? ≠ some '.'

theorem fractionOf_eq_none_iff {cs : List Char} : fractionOf cs = none ↔ cs.head? ≠ some '.' := by
  constructor
  · intro h hhead
    obtain ⟨rest, rfl⟩ := List.head?_eq_some_iff.mp hhead
    cases h
  · intro h
    apply fractionOf_of_ne
    rintro rest rfl
    exact h rfl

theorem numberToken_eq (cs : List Char) :
    numberToken cs =
      cs.takeWhile Char.isDigit ++ pointAnd (fractionOf (cs.dropWhile Char.isDigit)) := by
  unfold numberToken
  congr 1
  generalize cs.dropWhile Char.isDigit = rest
  split
  · rfl
  · rename_i h
    rw [fractionOf_of_ne h]
    rfl

theorem fractionOf_append {n : PlainNumber} {back : List Char} (h : EndsNumber n back) :
    fractionOf (pointAnd n.fraction ++ back) = n.fraction := by
  have hdigits := n.isDigit_fraction
  cases hfraction : n.fraction with
  | none => exact fractionOf_eq_none_iff.mpr (h.no_point hfraction)
  | some ds =>
    rw [hfraction] at hdigits
    exact congrArg some (takeWhile_run hdigits h.no_digit)

/-- A number is cut off exactly where it ends. -/
theorem numberToken_text_append {n : PlainNumber} {back : List Char} (h : EndsNumber n back) :
    numberToken (n.text ++ back) = n.text := by
  have hstop : StopsRun Char.isDigit (pointAnd n.fraction ++ back) := by
    cases n.fraction with
    | none => exact h.no_digit
    | some ds => exact stopsRun_cons.mpr rfl
  rw [numberToken_eq, PlainNumber.text, List.append_assoc, takeWhile_run n.isDigit_whole hstop,
    dropWhile_run n.isDigit_whole hstop, fractionOf_append h]

/-- A fraction goes on as far as there are digits. -/
theorem stopsRun_splitFraction {cs : List Char} (h : StopsRun Char.isDigit cs) :
    StopsRun Char.isDigit (Decimal.splitFraction cs).2 := by
  unfold Decimal.splitFraction
  split
  · exact stopsRun_dropWhile _ _
  · exact h

theorem endsNumber_atStart {cs : List Char}
    (h : cs.takeWhile Char.isDigit ++ (fractionOf (cs.dropWhile Char.isDigit)).getD [] ≠ []) :
    EndsNumber (.atStart cs h) (Decimal.splitFraction (cs.dropWhile Char.isDigit)).2 where
  no_digit := stopsRun_splitFraction (stopsRun_dropWhile _ _)
  no_point hnone := by
    have hwhole := (splitFraction_eq (cs.dropWhile Char.isDigit)).2
    have hfraction : fractionOf (cs.dropWhile Char.isDigit) = none := hnone
    rw [hfraction] at hwhole
    have hrest : (Decimal.splitFraction (cs.dropWhile Char.isDigit)).2 =
        cs.dropWhile Char.isDigit := hwhole
    rw [hrest]
    exact fractionOf_eq_none_iff.mp hfraction

/-- Where a number begins, there is a plain number that ends somewhere. -/
theorem exists_text_append_of_startsNumber {cs : List Char} (h : startsNumber cs = true) :
    ∃ n back, cs = PlainNumber.text n ++ back ∧ EndsNumber n back := by
  have hne :
      cs.takeWhile Char.isDigit ++ (fractionOf (cs.dropWhile Char.isDigit)).getD [] ≠ [] := by
    cases cs with
    | nil => cases h
    | cons c cs =>
      rcases startsNumber_cons_iff.mp h with hc | ⟨rfl, hcs⟩
      · rw [List.takeWhile_cons_of_pos hc]
        exact List.cons_ne_nil _ _
      · -- the digit behind the point
        intro hnil
        have htake : cs.takeWhile Char.isDigit = [] := hnil
        rw [← List.takeWhile_append_dropWhile (p := Char.isDigit) (l := cs), htake] at hcs
        exact hcs (stopsRun_dropWhile Char.isDigit cs)
  exact ⟨.atStart cs hne, _, (PlainNumber.text_atStart_append cs hne).symm, endsNumber_atStart hne⟩

/-- A plain number begins where it stands. -/
theorem startsNumber_text_append (n : PlainNumber) (back : List Char) :
    startsNumber (n.text ++ back) = true := by
  have hne := n.ne_nil
  have hdigit := n.isDigit_fraction
  unfold PlainNumber.text
  cases hwhole : n.whole with
  | cons c cs =>
    exact startsNumber_cons_iff.mpr (Or.inl (n.isDigit_whole c (hwhole ▸ List.mem_cons_self)))
  | nil =>
    rw [hwhole] at hne
    cases hfraction : n.fraction with
    | none =>
      rw [hfraction] at hne
      exact absurd rfl hne
    | some ds =>
      rw [hfraction] at hne hdigit
      obtain ⟨d, rest, rfl⟩ := List.exists_cons_of_ne_nil hne
      refine startsNumber_cons_iff.mpr (Or.inr ⟨rfl, fun hstop => ?_⟩)
      exact Bool.false_ne_true ((stopsRun_cons.mp hstop).symm.trans (hdigit d List.mem_cons_self))

/-! ## The first number -/

/-- The plain number stands in the text, and it is the first and complete. -/
def IsFirstNumber (text : List Char) (n : PlainNumber) : Prop :=
  ∃ front back, text = front ++ (n.text ++ back) ∧ InFront front (n.text ++ back) ∧
    EndsNumber n back

/-- **The first number of a text is read as the double nearest to its value**, and without
a number nothing is read. -/
theorem firstNumber_eq_some_iff {text : List Char} {x : Binary64} :
    firstNumber text = some x ↔ ∃ n, IsFirstNumber text n ∧ x = n.nearest false := by
  have hread : ∀ {n : PlainNumber} {back : List Char}, EndsNumber n back →
      Binary64.read (numberToken (n.text ++ back)) = some (n.nearest false) := by
    intro n back hback
    rw [numberToken_text_append hback, (isSigned_text n).read]
  unfold firstNumber
  rw [Option.bind_eq_some_iff]
  constructor
  · rintro ⟨rest, hrest, hx⟩
    obtain ⟨hstarts, front, rfl, hfront⟩ := fromNumber_eq_some_iff.mp hrest
    obtain ⟨n, back, rfl, hback⟩ := exists_text_append_of_startsNumber hstarts
    rw [hread hback] at hx
    exact ⟨n, ⟨front, back, rfl, hfront, hback⟩, (Option.some.inj hx).symm⟩
  · rintro ⟨n, ⟨front, back, rfl, hfront, hback⟩, rfl⟩
    exact ⟨n.text ++ back, fromNumber_eq_some_iff.mpr
      ⟨startsNumber_text_append n back, front, rfl, hfront⟩, hread hback⟩

end PrintJob

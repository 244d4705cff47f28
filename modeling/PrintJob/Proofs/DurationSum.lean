/-
# The seconds of a duration

A duration is worth the sum of its counts, each times the length of its unit. Adding the parts up
one after another, with a bound of 64 bits at each step, gives the same as adding them up exactly
and applying the bound at the end (`Duration.accumulate_eq`). So behind any text without decimal
digits a duration reads as its exact seconds, cut at the bound, whatever follows it; and nothing
is read of a text without a count of a unit, and of one whose first duration has a count that is
not a number of 64 bits in ASCII digits (`Duration.parse_written_and_none`).
-/
import PrintJob.Proofs.FirstDuration

namespace PrintJob

/-! ## Arithmetic with a bound -/

/-- A sum that stays at the largest number of 64 bits. -/
def saturatingAdd (a b : UInt64) : UInt64 := saturate (a.toNat + b.toNat)

/-- A product that stays at the largest number of 64 bits. -/
def saturatingMul (a b : UInt64) : UInt64 := saturate (a.toNat * b.toNat)

/-- A bound on the way does not show behind the bound at the end. -/
theorem saturate_toNat_saturate_add (a b : Nat) :
    saturate ((saturate a).toNat + b) = saturate (a + b) := by
  apply UInt64.toNat_inj.mp
  simp only [toNat_saturate]
  omega

theorem saturate_add_toNat_saturate (a b : Nat) :
    saturate (a + (saturate b).toNat) = saturate (a + b) := by
  rw [Nat.add_comm, saturate_toNat_saturate_add, Nat.add_comm]

/-- The length of a unit is a number of 64 bits. -/
theorem TimeUnit.toNat_saturate_inSeconds (unit : TimeUnit) :
    (saturate unit.inSeconds).toNat = unit.inSeconds := by
  cases unit <;> rfl

namespace Duration

/-! ## One part after another -/

/-- The seconds so far and those of one more part, with the bound at each step. -/
def addPart (sum : UInt64) (part : Part) : Option UInt64 :=
  (readWhole part.count).map fun count =>
    saturatingAdd sum (saturatingMul count (saturate part.unit.inSeconds))

/-- The seconds of parts, added up one after another with the bound at each step. -/
def accumulate (parts : List Part) : Option UInt64 := parts.foldlM addPart 0

theorem total_cons_eq (part : Part) (parts : List Part) :
    total (part :: parts) = (readWhole part.count).bind fun count =>
      (total parts).map fun rest => count.toNat * part.unit.inSeconds + rest := by
  rw [total]
  cases readWhole part.count with
  | none => rfl
  | some count => cases total parts <;> rfl

/-- From any sum on, the bound at each step gives what the bound at the end gives. -/
theorem foldlM_addPart (parts : List Part) (sum : UInt64) :
    parts.foldlM addPart sum = (total parts).map fun seconds =>
      saturate (sum.toNat + seconds) := by
  induction parts generalizing sum with
  | nil =>
    rw [total_nil, Option.map_some, Nat.add_zero, saturate_toNat]
    rfl
  | cons part parts ih =>
    rw [List.foldlM_cons, addPart, total_cons_eq]
    cases readWhole part.count with
    | none => rfl
    | some count =>
      rw [Option.map_some, Option.bind_some, Option.map_map]
      refine (ih _).trans ?_
      congr 1
      funext seconds
      rw [saturatingAdd, saturate_toNat_saturate_add, saturatingMul,
        TimeUnit.toNat_saturate_inSeconds, Nat.add_right_comm, saturate_add_toNat_saturate,
        Nat.add_right_comm, Nat.add_assoc]
      rfl

/-- **The bound at each step is the bound at the end.** -/
theorem accumulate_eq (parts : List Part) : accumulate parts = (total parts).map saturate := by
  rw [accumulate, foldlM_addPart]
  congr 1
  funext seconds
  exact congrArg saturate (Nat.zero_add seconds)

theorem parse_eq_accumulate (text : List Char) :
    parse text = (firstParts text).bind accumulate := by
  rw [parse]
  cases firstParts text with
  | none => rfl
  | some parts => exact (accumulate_eq parts).symm

/-! ## Exact sums -/

/-- The count is a number of 64 bits in ASCII digits. -/
def Fits (count : List Char) : Prop := (∀ c ∈ count, c.isDigit = true) ∧ ofDigits count < 2 ^ 64

/-- The seconds of parts, without a bound. -/
def secondsOf : List Part → Nat
  | [] => 0
  | part :: parts => ofDigits part.count * part.unit.inSeconds + secondsOf parts

/-- The number that parts count of a unit; none of them, and it is zero. -/
def amountIn (parts : List Part) (unit : TimeUnit) : Nat :=
  ((parts.find? fun part => part.unit == unit).map fun part => ofDigits part.count).getD 0

/-- The number that a duration counts of a unit. -/
def Written.amount (written : Written) (unit : TimeUnit) : Nat := amountIn written.parts unit

theorem amountIn_cons (part : Part) (parts : List Part) (unit : TimeUnit) :
    amountIn (part :: parts) unit =
      if part.unit = unit then ofDigits part.count else amountIn parts unit := by
  rw [amountIn, List.find?_cons]
  by_cases h : part.unit = unit
  · rw [if_pos h, beq_iff_eq.mpr h]
    rfl
  · rw [if_neg h, beq_eq_false_iff_ne.mpr h]
    rfl

theorem amountIn_eq_zero {parts : List Part} {unit : TimeUnit}
    (h : ∀ part ∈ parts, part.unit ≠ unit) : amountIn parts unit = 0 := by
  have hnone : (parts.find? fun part => part.unit == unit) = none := by
    rw [List.find?_eq_none]
    intro part hpart
    exact mt eq_of_beq (h part hpart)
  rw [amountIn, hnone]
  rfl

/-- **The seconds of a duration are those of its days, hours, minutes and seconds.** No unit
occurs twice, so each part is the whole amount of its unit. -/
theorem secondsOf_eq {parts : List Part}
    (h : parts.Pairwise fun a b => b.unit.inSeconds < a.unit.inSeconds) :
    secondsOf parts = 86400 * amountIn parts .day + 3600 * amountIn parts .hour +
      60 * amountIn parts .minute + amountIn parts .second := by
  induction parts with
  | nil => rfl
  | cons part parts ih =>
    obtain ⟨hfirst, hrest⟩ := List.pairwise_cons.mp h
    have hzero : amountIn parts part.unit = 0 := by
      apply amountIn_eq_zero
      intro other hother heq
      exact Nat.ne_of_lt (hfirst other hother) (congrArg TimeUnit.inSeconds heq)
    simp only [secondsOf, ih hrest, amountIn_cons]
    cases hunit : part.unit <;> rw [hunit] at hzero <;>
      simp only [TimeUnit.inSeconds, reduceCtorEq, if_true, if_false] <;> omega

theorem readWhole_eq_none {count : List Char} (h : ¬ Fits count) : readWhole count = none := by
  rw [Fits, Classical.not_and_iff_not_or_not] at h
  rw [readWhole]
  rcases h with hdigit | hlarge
  · have hall : count.all Char.isDigit = false := by
      rw [← Bool.not_eq_true, List.all_eq_true]
      exact hdigit
    rw [hall, Bool.not_false, Bool.or_true, if_pos rfl]
  · rw [dif_neg hlarge, ite_self]

/-- Parts whose counts fit add up to their seconds. -/
theorem total_of_fits {parts : List Part}
    (h : ∀ part ∈ parts, IsCount part.count ∧ Fits part.count) :
    total parts = some (secondsOf parts) := by
  induction parts with
  | nil => rfl
  | cons part parts ih =>
    obtain ⟨⟨hcount, hdigits, hlt⟩, hrest⟩ := List.forall_mem_cons.mp h
    exact total_cons ⟨hcount.ne_nil, hdigits, rfl⟩ hlt part.unit (ih hrest)

/-- One count that does not fit, and there is no sum. -/
theorem total_eq_none {parts : List Part} (h : ∃ part ∈ parts, ¬ Fits part.count) :
    total parts = none := by
  induction parts with
  | nil =>
    obtain ⟨part, hpart, -⟩ := h
    cases hpart
  | cons part parts ih =>
    rw [total_cons_eq]
    obtain ⟨other, hother, hfits⟩ := h
    rcases List.mem_cons.mp hother with rfl | hmem
    · rw [readWhole_eq_none hfits]
      rfl
    · rw [ih ⟨other, hmem, hfits⟩]
      cases readWhole part.count <;> rfl

/-! ## Reading durations -/

variable {text before after : List Char} {written : Written}

/-- A duration behind a text without decimal digits is the first one. -/
theorem isFirst_of_no_digit (hbefore : ∀ c ∈ before, isDecimalDigit c = false)
    (hvalid : written.IsValid) (hafter : ¬ written.ContinuesWith after) :
    IsFirst (before ++ (written.text ++ after)) before written after where
  text_eq := rfl
  isValid := hvalid
  notBehind := hafter
  notBefore := by
    intro front back hsplit hne hbegins
    obtain ⟨c, back, rfl⟩ := List.exists_cons_of_ne_nil hne
    have hdigit : isDecimalDigit c = true := BeginsPart.isDecimalDigit hbegins
    have hmem : c ∈ before := hsplit ▸ List.mem_append_right front List.mem_cons_self
    rw [hbefore c hmem] at hdigit
    cases hdigit

/-- **The first duration reads as its seconds**, if all of its counts fit. -/
theorem parse_of_fits (h : IsFirst text before written after)
    (hfits : ∀ part ∈ written.parts, Fits part.count) :
    parse text = some (saturate (secondsOf written.parts)) := by
  have htotal : total written.parts = some (secondsOf written.parts) :=
    total_of_fits fun part hpart => ⟨h.isValid.isCount part hpart, hfits part hpart⟩
  rw [parse, firstParts_of_isFirst h, Option.bind_some, htotal, Option.map_some]

/-- A first duration with a count that does not fit reads as none. -/
theorem parse_eq_none (h : IsFirst text before written after)
    (hfits : ∃ part ∈ written.parts, ¬ Fits part.count) : parse text = none := by
  rw [parse, firstParts_of_isFirst h, Option.bind_some, total_eq_none hfits, Option.map_none]

/-- **Nothing is read of a text exactly if no count in it has a unit, or if its first duration has
a count that does not fit.** -/
theorem parse_eq_none_iff : parse text = none ↔ ¬ HasPart text ∨
    ∃ before written after, IsFirst text before written after ∧
      ∃ part ∈ written.parts, ¬ Fits part.count := by
  constructor
  · intro hnone
    cases hparts : firstParts text with
    | none => exact Or.inl (firstParts_eq_none_iff.mp hparts)
    | some parts =>
      obtain ⟨before, written, after, hfirst, -⟩ := exists_isFirst hparts
      refine Or.inr ⟨before, written, after, hfirst, ?_⟩
      have hsome : ¬ ∀ part ∈ written.parts, Fits part.count := by
        intro hfits
        rw [parse_of_fits hfirst hfits] at hnone
        cases hnone
      simpa only [Classical.not_forall, exists_prop] using hsome
  · rintro (hpart | ⟨before, written, after, hfirst, hfits⟩)
    · rw [parse, firstParts_eq_none_iff.mpr hpart]
      rfl
    · exact parse_eq_none hfirst hfits

/-- **Durations read as their exact seconds, cut once at the bound.** The bound may as well be
applied at each step. Behind a text without decimal digits of any script, a duration whose counts
are numbers of 64 bits in ASCII digits reads as its days, hours, minutes and seconds together,
whatever follows that does not go on with a shorter unit. And nothing is read exactly if the text
has no count in front of the letter of a unit, or if a count of its first duration is none of
these numbers. -/
theorem parse_written_and_none :
    (∀ text, parse text = (firstParts text).bind accumulate) ∧
    (∀ before (written : Written) after, (∀ c ∈ before, isDecimalDigit c = false) →
      written.IsValid → (∀ part ∈ written.parts, Fits part.count) →
      ¬ written.ContinuesWith after →
      (parse (before ++ (written.text ++ after))).map UInt64.toNat =
        some (min (86400 * written.amount .day + 3600 * written.amount .hour +
          60 * written.amount .minute + written.amount .second) (2 ^ 64 - 1))) ∧
    (∀ text, parse text = none ↔ ¬ HasPart text ∨
      ∃ before written after, IsFirst text before written after ∧
        ∃ part ∈ written.parts, ¬ Fits part.count) := by
  refine ⟨parse_eq_accumulate, ?_, fun text => parse_eq_none_iff⟩
  intro before written after hbefore hvalid hfits hafter
  have hparse := parse_of_fits (isFirst_of_no_digit hbefore hvalid hafter) hfits
  rw [hparse, Option.map_some, toNat_saturate, secondsOf_eq hvalid.falling]
  rfl

/-- A duration beyond the bound, with zeros in front of a count and blanks of other kinds between
its parts; what follows has a longer unit, so it does not belong to the duration. -/
theorem parse_clamped_duration :
    let before := " (normal mode) = ".toList
    let written : Written := ⟨⟨.day, "18446744073709551615".toList⟩,
      [⟨[], ⟨.hour, "007".toList⟩⟩, ⟨"\u2003\t".toList, ⟨.minute, "5".toList⟩⟩]⟩
    let after := " 2h 9s".toList
    (∀ c ∈ before, isDecimalDigit c = false) ∧ written.IsValid ∧
      (∀ part ∈ written.parts, Fits part.count) ∧ ¬ written.ContinuesWith after ∧
      (parse (before ++ (written.text ++ after))).map UInt64.toNat = some (2 ^ 64 - 1) := by
  intro before written after
  have hbefore : ∀ c ∈ before, isDecimalDigit c = false := by
    have hall : before.all (fun c => !isDecimalDigit c) = true := by decide +kernel
    intro c hc
    exact Bool.not_eq_true' _ |>.mp (List.all_eq_true.mp hall c hc)
  have hcount : ∀ part ∈ written.parts, IsCount part.count ∧ Fits part.count := by
    have hall : written.parts.all (fun part => !part.count.isEmpty && part.count.all Char.isDigit &&
        decide (ofDigits part.count < 2 ^ 64)) = true := by decide +kernel
    intro part hpart
    have hpart := List.all_eq_true.mp hall part hpart
    simp only [Bool.and_eq_true, Bool.not_eq_true', List.isEmpty_eq_false_iff, List.all_eq_true,
      decide_eq_true_eq] at hpart
    obtain ⟨⟨hne, hdigit⟩, hlt⟩ := hpart
    exact ⟨⟨hne, fun c hc => isDecimalDigit_of_isDigit (hdigit c hc)⟩, hdigit, hlt⟩
  have hvalid : written.IsValid := by
    refine ⟨by decide +kernel, fun part hpart => (hcount part hpart).1, ?_⟩
    have hall : written.further.all (fun further => further.gap.all isBlank) = true := by
      decide +kernel
    intro further hfurther c hc
    exact List.all_eq_true.mp (List.all_eq_true.mp hall further hfurther) c hc
  have hafter : ¬ written.ContinuesWith after := by
    have hunits : [.minute, .second] <:+ TimeUnit.all := ⟨[.day, .hour], rfl⟩
    have hread : readParts [.second] (trimStart after) = [] := by decide +kernel
    rw [Written.continuesWith_cons_iff hvalid, Written.continuesWith_cons_iff hvalid.tail,
      Written.continuesWith_single_iff hunits]
    exact readParts_eq_nil_iff.mp hread
  refine ⟨hbefore, hvalid, fun part hpart => (hcount part hpart).2, hafter, ?_⟩
  have hparse := parse_written_and_none.2.1 before written after hbefore hvalid
    (fun part hpart => (hcount part hpart).2) hafter
  rw [hparse]
  decide +kernel

end Duration

end PrintJob

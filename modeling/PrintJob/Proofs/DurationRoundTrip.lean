/-
# Durations are read back

A duration is written in three layouts, which differ in the unit they begin with.
Each layout consists of the parts that `Duration.partsOf` lists, and these are the
parts that the reader finds (`readParts_format`). Their counts add up to the duration,
below the bound of 64 bits, so nothing is cut off (`total_partsOf`). Together: what is
written behind any text without decimal digits reads back as the same duration
(`Duration.parse_append_format`).
-/
import PrintJob.Proofs.DurationParts

namespace PrintJob

namespace Duration

/-! ## The parts that are written -/

/-- The parts that a duration is written with. -/
def partsOf (duration : UInt64) : List Part :=
  let seconds := duration.toNat
  let hours := seconds / 3600
  let minutes := seconds % 3600 / 60
  if hours > 0 then
    [⟨.hour, digits hours⟩, ⟨.minute, twoDigits minutes⟩, ⟨.second, twoDigits (seconds % 60)⟩]
  else if minutes > 0 then
    [⟨.minute, digits minutes⟩, ⟨.second, twoDigits (seconds % 60)⟩]
  else
    [⟨.second, digits seconds⟩]

/-- **The counts add up to the duration**, without a bound in between. -/
theorem total_partsOf (duration : UInt64) : total (partsOf duration) = some duration.toNat := by
  have hbound : duration.toNat < 2 ^ 64 := duration.toNat_lt
  simp only [partsOf]
  generalize duration.toNat = seconds at hbound ⊢
  have hsecond : IsNumeral (twoDigits (seconds % 60)) (seconds % 60) :=
    isNumeral_twoDigits (by omega)
  have hminute : IsNumeral (twoDigits (seconds % 3600 / 60)) (seconds % 3600 / 60) :=
    isNumeral_twoDigits (by omega)
  split
  · have htotal := total_cons (isNumeral_digits (seconds / 3600)) (by omega) .hour
      (total_cons hminute (by omega) .minute (total_cons hsecond (by omega) .second total_nil))
    simp only [TimeUnit.inSeconds] at htotal
    rw [htotal, Option.some.injEq]
    omega
  · split
    · have htotal := total_cons (isNumeral_digits (seconds % 3600 / 60)) (by omega) .minute
        (total_cons hsecond (by omega) .second total_nil)
      simp only [TimeUnit.inSeconds] at htotal
      rw [htotal, Option.some.injEq]
      omega
    · have htotal := total_cons (isNumeral_digits seconds) hbound .second total_nil
      simp only [TimeUnit.inSeconds] at htotal
      rw [htotal, Option.some.injEq]
      omega

theorem partsOf_ne_nil (duration : UInt64) : partsOf duration ≠ [] := by
  simp only [partsOf]
  split
  · exact List.cons_ne_nil _ _
  · split
    · exact List.cons_ne_nil _ _
    · exact List.cons_ne_nil _ _

/-! ## The parts that are read -/

/-- Behind a part, a space and a further count. -/
theorem readParts_space {count next : List Char} (h : IsCount count) (hnext : IsCount next)
    (unit : TimeUnit) (units : List TimeUnit) (rest : List Char) :
    readParts (unit :: units) (count ++ unit.letter :: ' ' :: (next ++ rest)) =
      ⟨unit, count⟩ :: readParts units (next ++ rest) := by
  have hgap : ∀ c ∈ [' '], isBlank c = true := by
    intro c hc
    obtain rfl := List.mem_singleton.mp hc
    decide
  exact readParts_part h unit units hgap (hnext.stopsRun_isBlank rest)

theorem readParts_second {seconds : List Char} (h : IsCount seconds) :
    readParts [.second] (seconds ++ ['s']) = [⟨.second, seconds⟩] := by
  have hgap : ∀ c ∈ ([] : List Char), isBlank c = true := by
    intro c hc
    cases hc
  exact readParts_part h .second [] hgap stopsRun_nil

theorem readParts_minute {minutes seconds : List Char} (hm : IsCount minutes)
    (hs : IsCount seconds) :
    readParts [.minute, .second] (minutes ++ 'm' :: ' ' :: (seconds ++ ['s'])) =
      [⟨.minute, minutes⟩, ⟨.second, seconds⟩] := by
  rw [← readParts_second hs]
  exact readParts_space hm hs .minute [.second] ['s']

theorem readParts_hour {hours minutes seconds : List Char} (hh : IsCount hours)
    (hm : IsCount minutes) (hs : IsCount seconds) :
    readParts [.hour, .minute, .second]
        (hours ++ 'h' :: ' ' :: (minutes ++ 'm' :: ' ' :: (seconds ++ ['s']))) =
      [⟨.hour, hours⟩, ⟨.minute, minutes⟩, ⟨.second, seconds⟩] := by
  rw [← readParts_minute hm hs]
  exact readParts_space hh hm .hour [.minute, .second] _

/-- **The parts that were written are read**, whatever the layout: the units before the
first one written are left out. -/
theorem readParts_format (duration : UInt64) :
    readParts TimeUnit.all (format duration) = partsOf duration := by
  simp only [format, partsOf, TimeUnit.all]
  generalize duration.toNat = seconds
  have hsecond : IsCount (twoDigits (seconds % 60)) := (isNumeral_twoDigits (by omega)).isCount
  have hminute : IsCount (twoDigits (seconds % 3600 / 60)) :=
    (isNumeral_twoDigits (by omega)).isCount
  -- one step for each unit that is left out, then the layout from its first unit on
  split
  · have hhour := (isNumeral_digits (seconds / 3600)).isCount
    rw [List.append_assoc, List.append_assoc]
    refine (readParts_cons_of_ne hhour .hour (by decide) _ _).trans ?_
    exact readParts_hour hhour hminute hsecond
  · split
    · have hfirst := (isNumeral_digits (seconds % 3600 / 60)).isCount
      rw [List.append_assoc]
      refine (readParts_cons_of_ne hfirst .minute (by decide) _ _).trans ?_
      refine (readParts_cons_of_ne hfirst .minute (by decide) _ _).trans ?_
      exact readParts_minute hfirst hsecond
    · have hfirst := (isNumeral_digits seconds).isCount
      refine (readParts_cons_of_ne hfirst .second (by decide) _ _).trans ?_
      refine (readParts_cons_of_ne hfirst .second (by decide) _ _).trans ?_
      refine (readParts_cons_of_ne hfirst .second (by decide) _ _).trans ?_
      exact readParts_second hfirst

/-! ## Reading what was written -/

/-- Behind a text without decimal digits the seconds that were written are read, before
any bound is applied. -/
theorem total_firstParts_format {before : List Char}
    (h : ∀ c ∈ before, isDecimalDigit c = false) (duration : UInt64) :
    (firstParts (before ++ format duration)).bind total = some duration.toNat := by
  obtain ⟨part, parts, hparts⟩ := List.exists_cons_of_ne_nil (partsOf_ne_nil duration)
  have hread := (readParts_format duration).trans hparts
  rw [firstParts_append h, firstParts_of_readParts hread, ← hparts]
  exact total_partsOf duration

theorem parse_format {before : List Char} (h : ∀ c ∈ before, isDecimalDigit c = false)
    (duration : UInt64) : parse (before ++ format duration) = some duration := by
  rw [parse, total_firstParts_format h, Option.map_some, saturate_toNat]

/-- **Durations are read back**, behind any text without decimal digits of any script:
the seconds read are those written, with no bound needed. So no two durations are
written alike. -/
theorem parse_append_format :
    (∀ before : List Char, (∀ c ∈ before, isDecimalDigit c = false) → ∀ duration,
      (firstParts (before ++ format duration)).bind total = some duration.toNat ∧
        parse (before ++ format duration) = some duration) ∧
    Function.Injective format := by
  constructor
  · intro before h duration
    exact ⟨total_firstParts_format h duration, parse_format h duration⟩
  · intro a b hab
    have hnone : ∀ c ∈ ([] : List Char), isDecimalDigit c = false := by
      intro c hc
      cases hc
    have ha := parse_format hnone a
    have hb := parse_format hnone b
    rw [hab, hb] at ha
    exact (Option.some.inj ha).symm

/-- The longest duration behind the words of a slicer, with letters of the units among
them. -/
theorem parse_longest_duration :
    let before := "; estimated printing time (normal mode) = ".toList
    let longest : UInt64 := 18446744073709551615
    format longest = "5124095576030431h 00m 15s".toList ∧
      (∀ c ∈ before, isDecimalDigit c = false) ∧
      (firstParts (before ++ format longest)).bind total = some 18446744073709551615 ∧
      parse (before ++ format longest) = some longest := by
  intro before longest
  have hwritten : format longest = "5124095576030431h 00m 15s".toList := by decide +kernel
  have hbefore : ∀ c ∈ before, isDecimalDigit c = false := by
    have hall : before.all (fun c => !isDecimalDigit c) = true := by decide +kernel
    intro c hc
    exact Bool.not_eq_true' _ |>.mp (List.all_eq_true.mp hall c hc)
  obtain ⟨htotal, hparse⟩ := parse_append_format.1 before hbefore longest
  exact ⟨hwritten, hbefore, htotal, hparse⟩

end Duration

end PrintJob

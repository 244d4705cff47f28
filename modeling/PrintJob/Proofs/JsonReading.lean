/-
# What is written on many lines is read back

A value whose numbers are texts of numbers is read back from the lines that `Json.pretty`
writes for it (`WellFormed.read_pretty`). Arrays and objects are lists of items in brackets,
which are read back if each item is; the fields of an object are items too.

Only a number can run on into the text behind it, so what is read back stands before a text
that does not continue a number.
-/
import PrintJob.Proofs.NumberTexts
import PrintJob.Proofs.QuotedText

namespace PrintJob

namespace Json

/-- All numbers inside a value are texts of numbers. -/
inductive WellFormed : Json → Prop
  | null : WellFormed .null
  | number {literal : List Char} (h : isNumber literal = true) : WellFormed (.number literal)
  | string (text : String) : WellFormed (.string text)
  | array {items : List Json} (h : ∀ item ∈ items, WellFormed item) : WellFormed (.array items)
  | object {fields : List (String × Json)} (h : ∀ field ∈ fields, WellFormed field.2) :
      WellFormed (.object fields)

/-! ## Blanks -/

theorem skipSpace_append {blanks : List Char} (h : ∀ c ∈ blanks, isSpace c = true)
    (cs : List Char) : skipSpace (blanks ++ cs) = skipSpace cs :=
  List.dropWhile_append_of_pos h

theorem skipSpace_cons {c : Char} (h : isSpace c = false) (cs : List Char) :
    skipSpace (c :: cs) = c :: cs := by
  unfold skipSpace
  rw [List.dropWhile_cons_of_neg (by simp [h])]

theorem isSpace_blank : ∀ c ∈ [' '], isSpace c = true := by
  intro c hc
  rw [List.mem_singleton.mp hc]
  rfl

theorem isSpace_newLine (depth : Nat) : ∀ c ∈ newLine depth, isSpace c = true := by
  intro c hc
  rcases List.mem_cons.mp hc with rfl | hc
  · rfl
  · rw [List.eq_of_mem_replicate hc]
    rfl

theorem skipSpace_newLine (depth : Nat) (cs : List Char) :
    skipSpace (newLine depth ++ cs) = skipSpace cs :=
  skipSpace_append (isSpace_newLine depth) cs

/-- Blanks in front of a value do not matter. -/
theorem readValue_append {blanks : List Char} (h : ∀ c ∈ blanks, isSpace c = true) (fuel : Nat)
    (cs : List Char) : readValue fuel (blanks ++ cs) = readValue fuel cs := by
  cases fuel with
  | zero => rfl
  | succ fuel =>
    unfold readValue
    rw [skipSpace_append h]

/-- Blanks in front of a field do not matter. -/
theorem readField_append {blanks : List Char} (h : ∀ c ∈ blanks, isSpace c = true)
    (readItem : List Char → Option (Json × List Char)) (cs : List Char) :
    readField readItem (blanks ++ cs) = readField readItem cs := by
  unfold readField
  rw [skipSpace_append h]

/-! ## Lists in brackets -/

section Lists

variable {α : Type} {readItem : List Char → Option (α × List Char)} {write : α → List Char}
  {close : Char} {depth : Nat}

/-- The items after the first one, each on a line of its own, and the closing bracket. -/
def writeRest (write : α → List Char) (close : Char) (depth : Nat) : List α → List Char
  | [] => newLine depth ++ [close]
  | item :: rest => ',' :: newLine (depth + 1) ++ write item ++ writeRest write close depth rest

/-- An item is read back before a text that does not continue a number. -/
def ReadsBack (readItem : List Char → Option (α × List Char)) (write : α → List Char)
    (item : α) : Prop :=
  ∀ rest, StopsRun isNumeric rest → readItem (write item ++ rest) = some (item, rest)

/-- What stands behind an item does not continue a number. -/
theorem stopsRun_writeRest (items : List α) (rest : List Char) :
    StopsRun isNumeric (writeRest write close depth items ++ rest) := by
  cases items with
  | nil => exact stopsRun_cons.mpr rfl
  | cons item items => exact stopsRun_cons.mpr rfl

theorem length_le_writeRest (items : List α) :
    items.length ≤ (writeRest write close depth items).length := by
  induction items with
  | nil => exact Nat.zero_le _
  | cons item items ih =>
    simp only [writeRest, List.length_append, List.length_cons]
    omega

/-- Each item of a list is written with at most as many characters as the list. -/
theorem length_write_le {item other : α} {items : List α} (h : other ∈ item :: items) :
    (write other).length ≤ (write item ++ writeRest write close depth items).length := by
  induction items generalizing item with
  | nil =>
    obtain rfl := List.mem_singleton.mp h
    rw [List.length_append]
    omega
  | cons next items ih =>
    simp only [writeRest, List.length_append, List.length_cons] at ih ⊢
    rcases List.mem_cons.mp h with rfl | h
    · omega
    · have := ih h
      omega

theorem readList_newLine (hblank : ∀ cs, readItem (newLine (depth + 1) ++ cs) = readItem cs)
    (fuel : Nat) (cs : List Char) :
    readList readItem close fuel (newLine (depth + 1) ++ cs) =
      readList readItem close fuel cs := by
  cases fuel with
  | zero => rfl
  | succ fuel =>
    unfold readList
    rw [hblank]

/-- Items that are read back form a list that is read back. -/
theorem readList_writeRest (hblank : ∀ cs, readItem (newLine (depth + 1) ++ cs) = readItem cs)
    (hcomma : close ≠ ',') (hclose : isSpace close = false) {item : α} {items : List α}
    (h : ∀ other ∈ item :: items, ReadsBack readItem write other) {fuel : Nat}
    (hfuel : items.length < fuel) (rest : List Char) :
    readList readItem close fuel
      (write item ++ (writeRest write close depth items ++ rest)) = some (item :: items, rest) := by
  -- each step reads the item in front and leaves the others to the induction
  induction items generalizing item fuel with
  | nil =>
    obtain ⟨fuel, rfl⟩ := Nat.exists_eq_succ_of_ne_zero (Nat.ne_of_gt hfuel)
    have hskip : skipSpace (writeRest write close depth [] ++ rest) = close :: rest := by
      rw [writeRest, List.append_assoc, skipSpace_newLine]
      exact skipSpace_cons hclose rest
    unfold readList
    rw [h item List.mem_cons_self _ (stopsRun_writeRest [] rest)]
    dsimp only
    rw [hskip]
    dsimp only
    rw [if_neg hcomma, if_pos rfl]
  | cons other items ih =>
    obtain ⟨fuel, rfl⟩ := Nat.exists_eq_succ_of_ne_zero (Nat.ne_of_gt (Nat.zero_lt_of_lt hfuel))
    have htail := ih (fun next hnext => h next (List.mem_cons_of_mem item hnext))
      (Nat.lt_of_succ_lt_succ hfuel)
    unfold readList
    rw [h item List.mem_cons_self _ (stopsRun_writeRest (other :: items) rest)]
    dsimp only
    simp only [writeRest, List.cons_append, List.append_assoc]
    rw [skipSpace_cons rfl]
    dsimp only
    rw [if_pos rfl, readList_newLine hblank, htail]
    rfl

/-- A text begins with a character that is neither a blank nor the closing bracket. -/
def Opens (close : Char) (text : List Char) : Prop :=
  ∃ c cs, text = c :: cs ∧ isSpace c = false ∧ c ≠ close

theorem readBrackets_nil (hclose : isSpace close = false) (rest : List Char) :
    readBrackets readItem close (close :: rest) = some ([], rest) := by
  unfold readBrackets
  rw [skipSpace_cons hclose]
  exact if_pos rfl

/-- Items that are read back are read back in brackets. -/
theorem readBrackets_cons (hblank : ∀ cs, readItem (newLine (depth + 1) ++ cs) = readItem cs)
    (hcomma : close ≠ ',') (hclose : isSpace close = false) {item : α} {items : List α}
    (h : ∀ other ∈ item :: items, ReadsBack readItem write other)
    (hopens : Opens close (write item)) (rest : List Char) :
    readBrackets readItem close
      (newLine (depth + 1) ++ (write item ++ (writeRest write close depth items ++ rest))) =
        some (item :: items, rest) := by
  -- the first character of the item tells that the list is not empty
  obtain ⟨c, cs, htext, hspace, hne⟩ := hopens
  have hskip : skipSpace (newLine (depth + 1) ++
      (write item ++ (writeRest write close depth items ++ rest))) =
        c :: (cs ++ (writeRest write close depth items ++ rest)) := by
    rw [skipSpace_newLine, htext]
    exact skipSpace_cons hspace _
  have hfuel : items.length < (newLine (depth + 1) ++
      (write item ++ (writeRest write close depth items ++ rest))).length := by
    have hrest : items.length ≤ (writeRest write close depth items).length :=
      length_le_writeRest items
    rw [htext]
    simp only [List.length_append, List.length_cons]
    omega
  unfold readBrackets
  rw [hskip]
  dsimp only
  rw [if_neg hne, readList_newLine hblank]
  exact readList_writeRest hblank hcomma hclose h hfuel rest

end Lists

/-! ## Items and fields -/

/-- A field as it is written on its line. -/
def writeField (depth : Nat) (field : String × Json) : List Char :=
  quote field.1 ++ ':' :: ' ' :: field.2.prettyAt depth

theorem prettyItems_eq (depth : Nat) (items : List Json) :
    prettyItems depth items = writeRest (prettyAt (depth + 1)) ']' depth items := by
  induction items with
  | nil => rfl
  | cons item items ih => rw [prettyItems, writeRest, ih]

theorem prettyFields_eq (depth : Nat) (fields : List (String × Json)) :
    prettyFields depth fields = writeRest (writeField (depth + 1)) '\x7d' depth fields := by
  induction fields with
  | nil => rfl
  | cons field fields ih =>
    rw [prettyFields, writeRest, ih]
    simp [writeField]

theorem prettyAt_array_cons (depth : Nat) (item : Json) (items : List Json) :
    (Json.array (item :: items)).prettyAt depth =
      '[' :: (newLine (depth + 1) ++
        (item.prettyAt (depth + 1) ++ writeRest (prettyAt (depth + 1)) ']' depth items)) := by
  rw [prettyAt, prettyItems_eq]
  simp

theorem prettyAt_object_cons (depth : Nat) (field : String × Json)
    (fields : List (String × Json)) :
    (Json.object (field :: fields)).prettyAt depth =
      '\x7b' :: (newLine (depth + 1) ++
        (writeField (depth + 1) field ++ writeRest (writeField (depth + 1)) '\x7d' depth fields)) := by
  rw [prettyAt, prettyFields_eq]
  simp [writeField]

/-- A field is read back if its value is. -/
theorem ReadsBack.field {readItem : List Char → Option (Json × List Char)} {depth : Nat}
    (hblank : ∀ cs, readItem (' ' :: cs) = readItem cs) {field : String × Json}
    (h : ReadsBack readItem (prettyAt depth) field.2) :
    ReadsBack (readField readItem) (writeField depth) field := by
  intro rest hrest
  unfold readField writeField
  rw [List.append_assoc, quote_append, skipSpace_cons rfl]
  show (readString (field.1.toList.flatMap escapeChar ++ '"' :: _)).bind _ = _
  rw [readString_flatMap, Option.bind_some, List.cons_append, skipSpace_cons rfl]
  show (readItem (' ' :: field.2.prettyAt depth ++ rest)).map _ = _
  rw [List.cons_append, hblank, h rest hrest]
  rfl

theorem opens_writeField (depth : Nat) (field : String × Json) :
    Opens '\x7d' (writeField depth field) :=
  ⟨'"', _, rfl, rfl, by decide⟩

/-! ## Numbers -/

theorem isSpace_of_isNumeric {c : Char} (h : isNumeric c = true) : isSpace c = false := by
  by_contra hspace
  simp only [Bool.not_eq_false, isSpace, Bool.or_eq_true, beq_iff_eq] at hspace
  rcases hspace with ((rfl | rfl) | rfl) | rfl <;> cases h

/-- A number begins with a character that is part of numbers. -/
theorem exists_cons_of_isNumber {literal : List Char} (h : isNumber literal = true) :
    ∃ c cs, literal = c :: cs ∧ isNumeric c = true := by
  cases literal with
  | nil => cases h
  | cons c cs => exact ⟨c, cs, rfl, isNumeric_of_isNumber h c List.mem_cons_self⟩

/-- What begins like a number is read as one. -/
theorem readValue_of_isNumeric {c : Char} (h : isNumeric c = true) (fuel : Nat)
    (cs : List Char) : readValue (fuel + 1) (c :: cs) = readNumber (c :: cs) := by
  unfold readValue
  rw [skipSpace_cons (isSpace_of_isNumeric h)]
  split
  all_goals first
    | rfl
    | (rename_i heq
       obtain ⟨rfl, -⟩ := List.cons.inj heq
       cases h)

theorem readNumber_append {literal : List Char} (h : isNumber literal = true) {rest : List Char}
    (hrest : StopsRun isNumeric rest) :
    readNumber (literal ++ rest) = some (.number literal, rest) := by
  have hrun := isNumeric_of_isNumber h
  unfold readNumber
  rw [takeWhile_run hrun hrest, dropWhile_run hrun hrest, if_pos h]

/-! ## Values -/

theorem readValue_quote (fuel : Nat) (cs : List Char) :
    readValue (fuel + 1) ('"' :: cs) =
      (readString cs).map fun text => (.string text.1, text.2) := rfl

theorem readValue_bracket (fuel : Nat) (cs : List Char) :
    readValue (fuel + 1) ('[' :: cs) =
      (readBrackets (readValue fuel) ']' cs).map fun items => (.array items.1, items.2) := rfl

theorem readValue_brace (fuel : Nat) (cs : List Char) :
    readValue (fuel + 1) ('\x7b' :: cs) =
      (readBrackets (readField (readValue fuel)) '\x7d' cs).map fun fields =>
        (.object fields.1, fields.2) := rfl

/-- No value begins with a blank or with the end of an array. -/
theorem WellFormed.opens {value : Json} (h : value.WellFormed) (depth : Nat) :
    Opens ']' (value.prettyAt depth) := by
  cases h with
  | null => exact ⟨'n', _, rfl, rfl, by decide⟩
  | number h =>
    obtain ⟨c, cs, htext, hc⟩ := exists_cons_of_isNumber h
    refine ⟨c, cs, htext, isSpace_of_isNumeric hc, ?_⟩
    rintro rfl
    cases hc
  | string text => exact ⟨'"', _, rfl, rfl, by decide⟩
  | @array items h =>
    cases items with
    | nil => exact ⟨'[', _, rfl, rfl, by decide⟩
    | cons item rest => exact ⟨'[', _, rfl, rfl, by decide⟩
  | @object fields h =>
    cases fields with
    | nil => exact ⟨'\x7b', _, rfl, rfl, by decide⟩
    | cons field rest => exact ⟨'\x7b', _, rfl, rfl, by decide⟩

/-- Whoever reads a value has fuel for it. -/
theorem exists_fuel {close : Char} {text : List Char} (h : Opens close text) {fuel : Nat}
    (hfuel : text.length ≤ fuel) : ∃ n, fuel = n + 1 := by
  obtain ⟨c, cs, rfl, -, -⟩ := h
  exact Nat.exists_eq_succ_of_ne_zero (Nat.ne_of_gt (Nat.lt_of_lt_of_le (Nat.succ_pos _) hfuel))

/-- A value is read back wherever it stands. The fuel pays for the depth, and a value inside
another is written with fewer characters. -/
theorem WellFormed.readsBack {value : Json} (h : value.WellFormed) (depth fuel : Nat)
    (hfuel : (value.prettyAt depth).length ≤ fuel) :
    ReadsBack (readValue fuel) (prettyAt depth) value := by
  induction h generalizing depth fuel with
  | null =>
    intro rest hrest
    obtain ⟨fuel, rfl⟩ := exists_fuel (null.opens depth) hfuel
    rfl
  | @number literal h =>
    intro rest hrest
    obtain ⟨fuel, rfl⟩ := exists_fuel ((number h).opens depth) hfuel
    obtain ⟨c, cs, htext, hc⟩ := exists_cons_of_isNumber h
    have hread := readNumber_append h hrest
    rw [htext] at hread ⊢
    show readValue (fuel + 1) (c :: (cs ++ rest)) = _
    rw [readValue_of_isNumeric hc]
    exact hread
  | string text =>
    intro rest hrest
    obtain ⟨fuel, rfl⟩ := exists_fuel ((string text).opens depth) hfuel
    rw [prettyAt, quote_append, readValue_quote, readString_flatMap]
    rfl
  | @array items h ih =>
    intro rest hrest
    obtain ⟨fuel, rfl⟩ := exists_fuel ((array h).opens depth) hfuel
    cases items with
    | nil =>
      rw [prettyAt, List.cons_append, List.cons_append, List.nil_append, readValue_bracket,
        readBrackets_nil rfl]
      rfl
    | cons item items =>
      rw [prettyAt_array_cons] at hfuel ⊢
      -- an item is shorter than the array, so that the fuel that is left pays for it
      have hback : ∀ other ∈ item :: items,
          ReadsBack (readValue fuel) (prettyAt (depth + 1)) other := by
        intro other hmem
        have hlength : (other.prettyAt (depth + 1)).length ≤ (item.prettyAt (depth + 1) ++
            writeRest (prettyAt (depth + 1)) ']' depth items).length := length_write_le hmem
        apply ih other hmem
        simp only [List.length_cons, List.length_append] at hfuel hlength
        omega
      have hread := readBrackets_cons (readValue_append (isSpace_newLine (depth + 1)) fuel)
        (by decide) rfl hback ((h item List.mem_cons_self).opens (depth + 1)) rest
      simp only [List.cons_append, List.append_assoc]
      rw [readValue_bracket, hread]
      rfl
  | @object fields h ih =>
    intro rest hrest
    obtain ⟨fuel, rfl⟩ := exists_fuel ((object h).opens depth) hfuel
    cases fields with
    | nil =>
      rw [prettyAt, List.cons_append, List.cons_append, List.nil_append, readValue_brace,
        readBrackets_nil rfl]
      rfl
    | cons field fields =>
      rw [prettyAt_object_cons] at hfuel ⊢
      -- and the value of a field is shorter than the object
      have hback : ∀ other ∈ field :: fields,
          ReadsBack (readField (readValue fuel)) (writeField (depth + 1)) other := by
        intro other hmem
        have hlength : (writeField (depth + 1) other).length ≤ (writeField (depth + 1) field ++
            writeRest (writeField (depth + 1)) '\x7d' depth fields).length := length_write_le hmem
        apply ReadsBack.field (readValue_append isSpace_blank fuel)
        apply ih other hmem
        simp only [writeField, List.length_cons, List.length_append] at hfuel hlength
        omega
      have hread := readBrackets_cons
        (readField_append (isSpace_newLine (depth + 1)) (readValue fuel))
        (by decide) rfl hback (opens_writeField (depth + 1) field) rest
      simp only [List.cons_append, List.append_assoc]
      rw [readValue_brace, hread]
      rfl

/-- The lines that are written for a value denote it. -/
theorem WellFormed.read_pretty {value : Json} (h : value.WellFormed) :
    read value.pretty = some value := by
  have hread : readValue value.pretty.length (value.pretty ++ []) = some (value, []) :=
    h.readsBack 0 value.pretty.length (Nat.le_refl _) [] stopsRun_nil
  rw [List.append_nil] at hread
  unfold read
  rw [hread]
  rfl

end Json

end PrintJob

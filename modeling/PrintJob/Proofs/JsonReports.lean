/-
# Reports denote themselves

What a program finds when it reads the reports that were written as JSON
(`renderJson_denotes`): one array with an object for each file, in order. The text, the
natural numbers and the doubles in these objects are those of the report, and a fact or a
simulation has a field exactly when it is present.

What an object denotes is said by its members: each has a name and a property of its value,
and a member without a property has no field. The order of the fields is not fixed.
-/
import Mathlib.Data.List.Forall2
import PrintJob.Proofs.JsonReading
import PrintJob.Rendering

namespace PrintJob

namespace Json

/-! ## Values with their fields in order -/

theorem sortItems_eq_map (items : List Json) : sortItems items = items.map sortKeys := by
  induction items with
  | nil => rfl
  | cons item items ih => rw [sortItems, ih, List.map_cons]

theorem insertField_perm (field : String × Json) (fields : List (String × Json)) :
    (insertField field fields).Perm (field :: fields) := by
  induction fields with
  | nil => exact List.Perm.refl _
  | cons other fields ih =>
    unfold insertField
    split
    · exact List.Perm.refl _
    · exact (ih.cons other).trans (List.Perm.swap field other fields)

/-- The fields in order are the fields. -/
theorem sortFields_perm (fields : List (String × Json)) :
    (sortFields fields).Perm (fields.map fun field => (field.1, field.2.sortKeys)) := by
  induction fields with
  | nil => exact List.Perm.refl _
  | cons field fields ih =>
    rw [sortFields, List.map_cons]
    exact (insertField_perm _ _).trans (ih.cons _)

/-- Order does not matter for being well-formed. -/
theorem WellFormed.sortKeys {value : Json} (h : value.WellFormed) : value.sortKeys.WellFormed := by
  induction h with
  | null => exact null
  | number h => exact number h
  | string text => exact string text
  | array h ih =>
    rw [Json.sortKeys, sortItems_eq_map]
    apply array
    intro item hitem
    obtain ⟨original, horiginal, rfl⟩ := List.mem_map.mp hitem
    exact ih original horiginal
  | object h ih =>
    rw [Json.sortKeys]
    apply object
    intro field hfield
    obtain ⟨original, horiginal, rfl⟩ := List.mem_map.mp ((sortFields_perm _).mem_iff.mp hfield)
    exact ih original horiginal

/-! ## What a value denotes -/

/-- A text. -/
def IsText (text : String) (value : Json) : Prop := value = .string text

/-- A natural number, written with nothing but digits. -/
def IsNatural (n : Nat) (value : Json) : Prop :=
  ∃ literal, value = .number literal ∧ literal ≠ [] ∧ (∀ c ∈ literal, c.isDigit = true) ∧
    ofDigits literal = n

/-- A double: a number, namely the text of the double, or `null` if it is not finite. -/
def IsDouble (x : Binary64) (value : Json) : Prop :=
  if x.isFinite = true then
    ∃ literal, value = .number literal ∧ isNumber literal = true ∧
      literal = NumberStyle.data.write x
  else value = .null

/-- The names of the members that have a field. -/
def memberNames (members : List (String × Option (Json → Prop))) : List String :=
  (members.filter fun member => member.2.isSome).map Prod.fst

/-- An object with exactly some members. No name stands twice among its fields, so that the
value of a member is the only one with the name. -/
def IsObject (members : List (String × Option (Json → Prop))) (value : Json) : Prop :=
  ∃ fields, value = .object fields ∧ (fields.map Prod.fst).Nodup ∧
    (fields.map Prod.fst).Perm (memberNames members) ∧
    ∀ name p, (name, some p) ∈ members → ∃ item, (name, item) ∈ fields ∧ p item

/-! ## Written values -/

/-- A value can be written, and once its fields are in order it denotes what is wanted. -/
def Denotes (p : Json → Prop) (value : Json) : Prop := value.WellFormed ∧ p value.sortKeys

theorem denotes_string (text : String) : Denotes (IsText text) (.string text) :=
  ⟨.string text, rfl⟩

theorem denotes_ofNat (n : Nat) : Denotes (IsNatural n) (.ofNat n) :=
  ⟨.number (isNumber_digits n), digits n, rfl, digits_ne_nil n, fun _ => isDigit_of_mem_digits,
    ofDigits_digits n⟩

theorem denotes_ofBinary64 (x : Binary64) : Denotes (IsDouble x) (.ofBinary64 x) := by
  unfold Json.ofBinary64 Denotes IsDouble
  by_cases h : x.isFinite = true
  · rw [if_pos h, if_pos h]
    exact ⟨.number (isNumber_write h), _, rfl, isNumber_write h, rfl⟩
  · rw [if_neg h, if_neg h]
    exact ⟨.null, rfl⟩

/-- A field that may be absent is written for a member. -/
def DenotesMember (member : String × Option (Json → Prop)) (field : String × Option Json) :
    Prop :=
  member.1 = field.1 ∧ Option.Rel Denotes member.2 field.2

/-- A member has a field, or neither of both is there. -/
theorem DenotesMember.cases {member : String × Option (Json → Prop)}
    {field : String × Option Json} (h : DenotesMember member field) :
    (∃ name, member = (name, none) ∧ field = (name, none)) ∨
      ∃ name p item, member = (name, some p) ∧ field = (name, some item) ∧ Denotes p item := by
  obtain ⟨name, p⟩ := member
  obtain ⟨name', item⟩ := field
  obtain ⟨hname, hitem⟩ := h
  cases hname
  cases hitem with
  | none => exact Or.inl ⟨name, rfl, rfl⟩
  | some hitem => exact Or.inr ⟨name, _, _, rfl, rfl, hitem⟩

/-- The names of the fields that are present are those of the members. -/
theorem names_present {members : List (String × Option (Json → Prop))}
    {fields : List (String × Option Json)} (h : List.Forall₂ DenotesMember members fields) :
    (present fields).map Prod.fst = memberNames members := by
  induction h with
  | nil => rfl
  | cons hfield h ih =>
    rcases hfield.cases with ⟨name, rfl, rfl⟩ | ⟨name, p, item, rfl, rfl, -⟩
    · exact ih
    · exact congrArg (name :: ·) ih

/-- Each present field has a value that can be written. -/
theorem wellFormed_present {members : List (String × Option (Json → Prop))}
    {fields : List (String × Option Json)} (h : List.Forall₂ DenotesMember members fields) :
    ∀ field ∈ present fields, WellFormed field.2 := by
  induction h with
  | nil =>
    intro field hmem
    cases hmem
  | cons hfield h ih =>
    rcases hfield.cases with ⟨name, rfl, rfl⟩ | ⟨name, p, item, rfl, rfl, hitem⟩
    · exact ih
    · exact List.forall_mem_cons.mpr ⟨hitem.1, ih⟩

/-- Each member has a present field. -/
theorem exists_mem_present {members : List (String × Option (Json → Prop))}
    {fields : List (String × Option Json)} (h : List.Forall₂ DenotesMember members fields)
    {name : String} {p : Json → Prop} (hmember : (name, some p) ∈ members) :
    ∃ item, (name, item) ∈ present fields ∧ Denotes p item := by
  induction h with
  | nil => cases hmember
  | cons hfield h ih =>
    rcases hfield.cases with ⟨other, rfl, rfl⟩ | ⟨other, q, first, rfl, rfl, hfirst⟩
    · rcases List.mem_cons.mp hmember with habsent | hrest
      · cases habsent
      · exact ih hrest
    · rcases List.mem_cons.mp hmember with hsame | hrest
      · cases hsame
        exact ⟨first, List.mem_cons_self, hfirst⟩
      · obtain ⟨item, hmem, hitem⟩ := ih hrest
        exact ⟨item, List.mem_cons_of_mem _ hmem, hitem⟩

/-- Fields that are written for the members of an object form the object. -/
theorem denotes_object {members : List (String × Option (Json → Prop))}
    {fields : List (String × Option Json)} (hnodup : (members.map Prod.fst).Nodup)
    (h : List.Forall₂ DenotesMember members fields) :
    Denotes (IsObject members) (.object (present fields)) := by
  -- putting the fields in order changes neither their names nor which fields there are
  have hperm := sortFields_perm (present fields)
  have hnames : ((sortFields (present fields)).map Prod.fst).Perm (memberNames members) := by
    rw [← names_present h]
    have hmap := hperm.map Prod.fst
    rw [List.map_map] at hmap
    exact hmap
  have hdistinct : (memberNames members).Nodup :=
    hnodup.sublist (List.filter_sublist.map Prod.fst)
  refine ⟨.object (wellFormed_present h), sortFields (present fields), by rw [sortKeys],
    hnames.nodup_iff.mpr hdistinct, hnames, ?_⟩
  intro name p hmember
  obtain ⟨item, hmem, hitem⟩ := exists_mem_present h hmember
  refine ⟨item.sortKeys, ?_, hitem.2⟩
  apply hperm.mem_iff.mpr
  exact List.mem_map.mpr ⟨(name, item), hmem, rfl⟩

/-- Fields all of which are present form an object. -/
theorem denotes_fields {members : List (String × Option (Json → Prop))}
    {fields : List (String × Json)} (hnodup : (members.map Prod.fst).Nodup)
    (h : List.Forall₂ (fun member field => DenotesMember member (field.1, some field.2))
      members fields) :
    Denotes (IsObject members) (.object fields) := by
  have hpresent : present (fields.map fun field => (field.1, some field.2)) = fields := by
    simp [present, List.filterMap_map]
  rw [← hpresent]
  exact denotes_object hnodup (List.forall₂_map_right_iff.mpr h)

theorem denotesMember_some (name : String) {p : Json → Prop} {item : Json} (h : Denotes p item) :
    DenotesMember (name, some p) (name, some item) :=
  ⟨rfl, .some h⟩

/-- A fact that may be absent is written for a member that may be absent. -/
theorem denotesMember_map {α : Type} (name : String) {p : α → Json → Prop} {write : α → Json}
    (h : ∀ fact, Denotes (p fact) (write fact)) (fact : Option α) :
    DenotesMember (name, fact.map p) (name, fact.map write) := by
  refine ⟨rfl, ?_⟩
  cases fact with
  | none => exact .none
  | some fact => exact .some (h fact)

/-! ## Reports -/

/-- A position. -/
def IsPosition (p : Position) : Json → Prop :=
  IsObject [("x", some (IsDouble p.x)), ("y", some (IsDouble p.y)), ("z", some (IsDouble p.z)),
    ("e", some (IsDouble p.e))]

/-- A simulation. -/
def IsSimulation (s : Simulation) : Json → Prop :=
  IsObject [("seconds", some (IsDouble s.seconds)), ("distanceMm", some (IsDouble s.distance)),
    ("moves", some (IsNatural s.moves)), ("finalPosition", some (IsPosition s.finalPosition)),
    ("finalFeedRate", some (IsDouble s.finalFeedRate))]

/-- Metadata; only the facts that are present have a field. -/
def IsMetadata (m : Metadata) : Json → Prop :=
  IsObject [("flavor", m.flavor.map IsText),
    ("estimatedTime", m.estimatedTime.map fun seconds => IsNatural seconds.toNat),
    ("filamentUsed", m.filamentUsed.map IsDouble), ("layerHeight", m.layerHeight.map IsDouble)]

/-- A report; only a simulation that is present has a field. -/
def IsReport (r : Report) : Json → Prop :=
  IsObject [("metadata", some (IsMetadata r.metadata)),
    ("layerCount", some (IsNatural r.layerCount)),
    ("estimatedSeconds", some (IsNatural r.estimatedSeconds.toNat)),
    ("timeSource", some (IsText r.timeSource.name)),
    ("simulation", r.simulation.map IsSimulation)]

/-- The outcome for a file: its path, and either the report or the message of the failure. -/
def IsFileReport (file : FileReport) : Json → Prop :=
  IsObject [("path", some (IsText file.path)),
    match file.outcome with
    | .ok report => ("report", some (IsReport report))
    | .error failure => ("error", some (IsText failure.message))]

theorem denotes_position (p : Position) : Denotes (IsPosition p) p.toJson := by
  apply denotes_fields (by simp)
  exact .cons (denotesMember_some "x" (denotes_ofBinary64 p.x))
    (.cons (denotesMember_some "y" (denotes_ofBinary64 p.y))
    (.cons (denotesMember_some "z" (denotes_ofBinary64 p.z))
    (.cons (denotesMember_some "e" (denotes_ofBinary64 p.e)) .nil)))

theorem denotes_simulation (s : Simulation) : Denotes (IsSimulation s) s.toJson := by
  apply denotes_fields (by simp)
  exact .cons (denotesMember_some "seconds" (denotes_ofBinary64 s.seconds))
    (.cons (denotesMember_some "distanceMm" (denotes_ofBinary64 s.distance))
    (.cons (denotesMember_some "moves" (denotes_ofNat s.moves))
    (.cons (denotesMember_some "finalPosition" (denotes_position s.finalPosition))
    (.cons (denotesMember_some "finalFeedRate" (denotes_ofBinary64 s.finalFeedRate)) .nil))))

theorem denotes_metadata (m : Metadata) : Denotes (IsMetadata m) m.toJson := by
  apply denotes_object (by simp)
  exact .cons (denotesMember_map "flavor" denotes_string m.flavor)
    (.cons (denotesMember_map "estimatedTime" (fun seconds => denotes_ofNat seconds.toNat)
      m.estimatedTime)
    (.cons (denotesMember_map "filamentUsed" denotes_ofBinary64 m.filamentUsed)
    (.cons (denotesMember_map "layerHeight" denotes_ofBinary64 m.layerHeight) .nil)))

theorem denotes_report (r : Report) : Denotes (IsReport r) r.toJson := by
  apply denotes_object (by simp)
  exact .cons (denotesMember_some "metadata" (denotes_metadata r.metadata))
    (.cons (denotesMember_some "layerCount" (denotes_ofNat r.layerCount))
    (.cons (denotesMember_some "estimatedSeconds" (denotes_ofNat r.estimatedSeconds.toNat))
    (.cons (denotesMember_some "timeSource" (denotes_string r.timeSource.name))
    (.cons (denotesMember_map "simulation" denotes_simulation r.simulation) .nil))))

theorem denotes_fileReport (file : FileReport) : Denotes (IsFileReport file) file.toJson := by
  obtain ⟨path, outcome⟩ := file
  have hpath := denotesMember_some "path" (denotes_string path)
  cases outcome with
  | ok report =>
    apply denotes_fields (by simp)
    exact .cons hpath (.cons (denotesMember_some "report" (denotes_report report)) .nil)
  | error failure =>
    apply denotes_fields (by simp)
    exact .cons hpath (.cons (denotesMember_some "error" (denotes_string failure.message)) .nil)

/-! ## Documents -/

/-- An array ends with its bracket. -/
theorem getLast?_pretty_array (items : List Json) :
    (Json.array items).pretty.getLast? = some ']' := by
  -- the bracket stands behind the last item, whichever that is
  have hrest : ∀ items depth, (writeRest (prettyAt (depth + 1)) ']' depth items).getLast? =
      some ']' := by
    intro items depth
    induction items with
    | nil => simp [writeRest]
    | cons item items ih => rw [writeRest, List.getLast?_append, ih, Option.some_or]
  unfold pretty
  cases items with
  | nil =>
    rw [prettyAt]
    rfl
  | cons item items =>
    rw [prettyAt_array_cons, ← List.append_assoc, ← List.cons_append, List.getLast?_append, hrest,
      Option.some_or]

end Json

/-- **Reports denote themselves.** Written as JSON, a list of file reports is one document and a
line end. Reading the document gives an array of the same length, whose items are, in order,
what the file reports say. -/
theorem renderJson_denotes (files : List FileReport) :
    ∃ document items, (render .json files).toList = document ++ ['\n'] ∧
      document.getLast? = some ']' ∧ Json.read document = some (.array items) ∧
      List.Forall₂ Json.IsFileReport files items := by
  have hwell : (Json.array (files.map FileReport.toJson)).WellFormed := by
    apply Json.WellFormed.array
    intro item hitem
    obtain ⟨file, -, rfl⟩ := List.mem_map.mp hitem
    exact (Json.denotes_fileReport file).1
  have hsorted : (Json.array (files.map FileReport.toJson)).sortKeys =
      .array ((files.map FileReport.toJson).map Json.sortKeys) := by
    rw [Json.sortKeys, Json.sortItems_eq_map]
  have hread := hwell.sortKeys.read_pretty
  rw [hsorted] at hread
  refine ⟨(Json.array ((files.map FileReport.toJson).map Json.sortKeys)).pretty,
    (files.map FileReport.toJson).map Json.sortKeys, ?_, Json.getLast?_pretty_array _, hread, ?_⟩
  · show (renderJson files).toList = _
    unfold renderJson
    rw [hsorted, String.toList_ofList]
  · rw [List.map_map, List.forall₂_map_right_iff, List.forall₂_same]
    intro file _
    exact (Json.denotes_fileReport file).2

end PrintJob

/-
# JSON values

A JSON value, with numbers kept as the text they are written with. An object is a
list of fields in the order in which they are written; `sortKeys` puts the fields
of all objects inside a value in the order of their names.
-/
import PrintJob.Decimal.Layout

namespace PrintJob

/-- A JSON value. -/
inductive Json where
  | null
  | number (literal : List Char)
  | string (text : String)
  | array (items : List Json)
  | object (fields : List (String × Json))

namespace Json

/-! ## Scalars -/

/-- A natural number. -/
def ofNat (n : Nat) : Json := .number (digits n)

/-- A double; JSON has no text for one that is not finite, so it becomes `null`. -/
def ofBinary64 (x : Binary64) : Json :=
  if x.isFinite then .number (NumberStyle.data.write x) else .null

/-- The fields whose values are present. -/
def present (fields : List (String × Option Json)) : List (String × Json) :=
  fields.filterMap fun field => field.2.map fun value => (field.1, value)

/-! ## Order of fields -/

/-- Puts a field before the first one with a greater name. -/
def insertField (field : String × Json) : List (String × Json) → List (String × Json)
  | [] => [field]
  | other :: rest =>
    if field.1 < other.1 then field :: other :: rest else other :: insertField field rest

mutual

/-- The same value with the fields of every object ordered by name. -/
def sortKeys : Json → Json
  | .array items => .array (sortItems items)
  | .object fields => .object (sortFields fields)
  | .null => .null
  | .number literal => .number literal
  | .string text => .string text

/-- The items of an array with their objects in order. -/
def sortItems : List Json → List Json
  | [] => []
  | item :: rest => item.sortKeys :: sortItems rest

/-- The fields of an object in order, and the objects in their values too. -/
def sortFields : List (String × Json) → List (String × Json)
  | [] => []
  | (name, value) :: rest => insertField (name, value.sortKeys) (sortFields rest)

end

end Json

end PrintJob

/-
# Writing JSON

* `Json.compact`: no blanks at all.
* `Json.pretty`: every item and every field on a line of its own, indented by two
  blanks for each level; empty arrays and objects stay on one line.
* `quote`: a string in quotes, in which quotes, backslashes and control characters
  are escaped, and nothing else.
-/
import PrintJob.Json.Value

namespace PrintJob

/-! ## Strings -/

/-- A hexadecimal digit in lower case, for values below sixteen. -/
def hexDigit (d : Nat) : Char := if d < 10 then digitChar d else Char.ofNat ('a'.toNat + (d - 10))

/-- A character as it is written inside quotes. -/
def escapeChar (c : Char) : List Char :=
  if c = '"' then ['\\', '"']
  else if c = '\\' then ['\\', '\\']
  else if c = '\n' then ['\\', 'n']
  else if c = '\r' then ['\\', 'r']
  else if c = '\t' then ['\\', 't']
  else if c.toNat = 8 then ['\\', 'b']
  else if c.toNat = 12 then ['\\', 'f']
  else if c.toNat < 32 then
    ['\\', 'u', '0', '0', hexDigit (c.toNat / 16), hexDigit (c.toNat % 16)]
  else [c]

/-- A string in quotes. -/
def quote (text : String) : List Char := '"' :: text.toList.flatMap escapeChar ++ ['"']

/-- The start of a new line at a depth of indentation. -/
def newLine (depth : Nat) : List Char := '\n' :: List.replicate (2 * depth) ' '

namespace Json

/-! ## Without blanks -/

mutual

/-- A value without blanks. -/
def compact : Json → List Char
  | .null => "null".toList
  | .number literal => literal
  | .string text => quote text
  | .array [] => ['[', ']']
  | .array (item :: rest) => '[' :: item.compact ++ compactItems rest
  | .object [] => ['\x7b', '\x7d']
  | .object ((name, value) :: rest) =>
    '\x7b' :: quote name ++ ':' :: value.compact ++ compactFields rest

/-- The items after the first one, and the end of the array. -/
def compactItems : List Json → List Char
  | [] => [']']
  | item :: rest => ',' :: item.compact ++ compactItems rest

/-- The fields after the first one, and the end of the object. -/
def compactFields : List (String × Json) → List Char
  | [] => ['\x7d']
  | (name, value) :: rest => ',' :: quote name ++ ':' :: value.compact ++ compactFields rest

end

/-! ## Indented -/

mutual

/-- A value that begins at a depth of indentation, its parts on lines of their own. -/
def prettyAt (depth : Nat) : Json → List Char
  | .null => "null".toList
  | .number literal => literal
  | .string text => quote text
  | .array [] => ['[', ']']
  | .array (item :: rest) =>
    '[' :: newLine (depth + 1) ++ item.prettyAt (depth + 1) ++ prettyItems depth rest
  | .object [] => ['\x7b', '\x7d']
  | .object ((name, value) :: rest) =>
    '\x7b' :: newLine (depth + 1) ++ quote name ++ ':' :: ' ' :: value.prettyAt (depth + 1) ++
      prettyFields depth rest

/-- The items after the first one, and the end of the array. -/
def prettyItems (depth : Nat) : List Json → List Char
  | [] => newLine depth ++ [']']
  | item :: rest =>
    ',' :: newLine (depth + 1) ++ item.prettyAt (depth + 1) ++ prettyItems depth rest

/-- The fields after the first one, and the end of the object. -/
def prettyFields (depth : Nat) : List (String × Json) → List Char
  | [] => newLine depth ++ ['\x7d']
  | (name, value) :: rest =>
    ',' :: newLine (depth + 1) ++ quote name ++ ':' :: ' ' :: value.prettyAt (depth + 1) ++
      prettyFields depth rest

end

/-- A value with every part on a line of its own. -/
def pretty (value : Json) : List Char := value.prettyAt 0

end Json

end PrintJob

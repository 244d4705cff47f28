/-
# TOML documents

A document is a sequence of lines, each of which is blank, opens a table by a header
or assigns a value to a key; strings, arrays and inline tables may go over several
lines. `Toml.parse` gives the table of the whole document.
-/
import PrintJob.Toml.Scalar

namespace PrintJob

namespace Toml

/-! ## Limits -/

/-- How many arrays and inline tables may stand inside one another, and how many parts
a key may have. -/
def depthLimit : Nat := 80

/-! ## Keys -/

/-- One part of a key: without quotes, or a string on one line. -/
def readSimpleKey : List Char → Option (List Char × List Char)
  | '"' :: rest => readBasic (rest.length + 1) rest
  | '\x27' :: rest => readLiteral rest
  | cs =>
    let name := cs.takeWhile isBareKeyChar
    if name.isEmpty then none else some (name, cs.dropWhile isBareKeyChar)

/-- A key: parts with points between them. The last part comes apart from the path
that leads to it. Blanks after the key are skipped; `fuel` bounds the number of parts. -/
def readKeyParts : Nat → List Char → Option ((List (List Char) × List Char) × List Char)
  | 0, _ => none
  | fuel + 1, cs => do
    let (name, rest) ← readSimpleKey cs
    match skipSpaces rest with
    | '.' :: after =>
      let ((path, last), rest) ← readKeyParts fuel (skipSpaces after)
      return ((name :: path, last), rest)
    | rest => return (([], name), rest)

/-- A key of at most `depthLimit` parts. -/
def readKey (cs : List Char) : Option ((List (List Char) × List Char) × List Char) :=
  readKeyParts depthLimit cs

/-! ## Values -/

mutual

/-- A value at the start of a text, and the rest; `depth` is the number of arrays and
inline tables that may still be opened inside one another. -/
def readValue : Nat → Nat → List Char → Option (Value × List Char)
  | 0, _, _ => none
  | _ + 1, _, [] => none
  | fuel + 1, depth, c :: rest =>
    if isQuote c then
      (readString (c :: rest)).map fun (text, after) => (.scalar (.string text), after)
    else if c = '[' then
      if depth = 0 then none
      else (readItems fuel (depth - 1) (skipTrivia rest)).map fun (items, after) =>
        (.array items, after)
    else if c = '\x7b' then
      if depth = 0 then none
      else (readEntries fuel (depth - 1) [] (skipTrivia rest)).map fun (entries, after) =>
        (.inlineTable entries, after)
    else
      (readScalar (c :: rest)).map fun (value, after) => (.scalar value, after)

/-- The items of an array up to its end; the last may be followed by a comma. -/
def readItems : Nat → Nat → List Char → Option (List Value × List Char)
  | 0, _, _ => none
  | _ + 1, _, ']' :: rest => some ([], rest)
  | fuel + 1, depth, cs =>
    match readValue fuel depth cs with
    | none => none
    | some (value, rest) =>
      match skipTrivia rest with
      | ']' :: after => some ([value], after)
      | ',' :: after =>
        (readItems fuel depth (skipTrivia after)).map fun (items, last) => (value :: items, last)
      | _ => none

/-- The entries of an inline table up to its end, after those already read; the last
may be followed by a comma. Lines may end everywhere but inside a key. -/
def readEntries : Nat → Nat → Entries → List Char → Option (Entries × List Char)
  | 0, _, _, _ => none
  | _ + 1, _, entries, '\x7d' :: rest => some (entries, rest)
  | fuel + 1, depth, entries, cs =>
    match readKey cs with
    | none => none
    | some ((path, key), rest) =>
      match skipTrivia rest with
      | '=' :: rest =>
        match readValue fuel depth (skipTrivia rest) with
        | none => none
        | some (value, rest) =>
          match assign path key value entries with
          | none => none
          | some entries =>
            match skipTrivia rest with
            | '\x7d' :: after => some (entries, after)
            | ',' :: after => readEntries fuel depth entries (skipTrivia after)
            | _ => none
      | _ => none

end

/-! ## Lines -/

/-- What has been read of a document: its table, and the path of the last header. -/
structure Progress where
  root : Entries := []
  current : List (List Char) := []

/-- A header after its first bracket: in single brackets it opens a table, in double
brackets it adds a table to a list. -/
def readHeader (progress : Progress) : List Char → Option (Progress × List Char)
  | '[' :: rest => do
    let cs := skipSpaces rest
    match ← readKey cs with
    | ((path, key), ']' :: ']' :: after) =>
      return (⟨← pushTable path key progress.root, path ++ [key]⟩, after)
    | _ => none
  | rest => do
    let cs := skipSpaces rest
    match ← readKey cs with
    | ((path, key), ']' :: after) =>
      return (⟨← openTable path key progress.root, path ++ [key]⟩, after)
    | _ => none

/-- A key with its value. -/
def readAssignment (progress : Progress) (cs : List Char) : Option (Progress × List Char) := do
  match ← readKey cs with
  | ((path, key), '=' :: rest) =>
    let start := skipSpaces rest
    let (value, after) ← readValue (start.length + 1) depthLimit start
    return ({ progress with root := ← assignIn progress.current path key value progress.root },
      after)
  | _ => none

/-- The line at the start of a text; `cs` has no blanks in front. -/
def readLine (progress : Progress) (cs : List Char) : Option (Progress × List Char) := do
  let (next, rest) ← match cs with
    | '[' :: rest => readHeader progress rest
    | '#' :: _ => some (progress, cs)
    | '\r' :: _ => some (progress, cs)
    | '\n' :: _ => some (progress, cs)
    | _ => readAssignment progress cs
  return (next, ← endLine rest)

/-- All lines of a text; `fuel` bounds their number. -/
def readLines : Nat → Progress → List Char → Option Entries
  | 0, _, _ => none
  | fuel + 1, progress, cs =>
    match skipSpaces cs with
    | [] => some progress.root
    | c :: rest =>
      match readLine progress (c :: rest) with
      | some (next, after) => readLines fuel next after
      | none => none

/-- The table of a document. A byte order mark in front is skipped. -/
def parse (cs : List Char) : Option Entries :=
  let text := match cs with
    | '\ufeff' :: rest => rest
    | _ => cs
  readLines (text.length + 1) {} text

end Toml

end PrintJob

/-
# TOML tables

The values of a TOML document and the rules for building its tables. A table comes
into being in one of three ways, its `TableOrigin`, and that decides whether it may
be opened again or extended later:

* a header names a table once, but may name one that earlier headers only passed;
* a dotted key extends only tables that dotted keys made, on the way to them also
  tables that headers passed;
* inline tables and arrays written as values are closed.
-/
import PrintJob.Binary64.Basic

namespace PrintJob

namespace Toml

/-- How a table came into being. -/
inductive TableOrigin where
  /-- Named by a header of its own; also the table of the whole document. -/
  | header
  /-- Passed on the way to the table that a header names. -/
  | passed
  /-- Passed on the way to a dotted key. -/
  | dotted
deriving DecidableEq

/-- A value that holds no further values. -/
inductive Scalar where
  | string (text : List Char)
  | integer (value : Int)
  | float (value : Binary64)
  | boolean (value : Bool)
  | dateTime
  /-- A text in the form of a number that denotes none, or none in the range of doubles.
  It does harm only where a number is wanted. -/
  | unusable
deriving DecidableEq

/-- A value. -/
inductive Value where
  | scalar (value : Scalar)
  | array (items : List Value)
  | inlineTable (entries : List (List Char × Value))
  | table (origin : TableOrigin) (entries : List (List Char × Value))
  /-- Tables that headers in double brackets named one after another. -/
  | tableArray (tables : List (List (List Char × Value)))

/-- The entries of a table, in the order of their first mention. -/
abbrev Entries := List (List Char × Value)

/-! ## Entries -/

/-- Changes the value of a key, or adds the key at the end; both may be refused. -/
def Entries.alter (key : List Char) (change : Option Value → Option Value) :
    Entries → Option Entries
  | [] => (change none).map fun value => [(key, value)]
  | (name, value) :: rest =>
    if name = key then (change (some value)).map fun new => (name, new) :: rest
    else (alter key change rest).map fun new => (name, value) :: new

/-- Changes the last of a list of tables. -/
def alterLast (change : Entries → Option Entries) : List Entries → Option (List Entries)
  | [] => none
  | [last] => (change last).map fun new => [new]
  | first :: rest => (alterLast change rest).map (first :: ·)

/-! ## Paths -/

/-- Changes the table that a path leads to. Missing tables on the way are made with
origin `step`; of a list of tables the way leads into the last. A dotted key does
not pass tables that have a header. -/
def descend (step : TableOrigin) (change : TableOrigin → Entries → Option Entries) :
    List (List Char) → TableOrigin → Entries → Option Entries
  | [], origin, entries => change origin entries
  | key :: path, _, entries =>
    entries.alter key fun
      | none => (descend step change path step []).map (.table step)
      | some (.table origin inner) =>
        if step = .dotted ∧ origin = .header then none
        else (descend step change path origin inner).map (.table origin)
      | some (.tableArray tables) =>
        (alterLast (descend step change path .header) tables).map .tableArray
      | some _ => none

/-- Names the table at the end of a path by a header. -/
def openTable (path : List (List Char)) (key : List Char) (root : Entries) : Option Entries :=
  descend .passed (fun _ entries => entries.alter key fun
    | none => some (.table .header [])
    | some (.table .passed inner) => some (.table .header inner)
    | some _ => none) path .header root

/-- Adds one more table to the list at the end of a path. -/
def pushTable (path : List (List Char)) (key : List Char) (root : Entries) : Option Entries :=
  descend .passed (fun _ entries => entries.alter key fun
    | none => some (.tableArray [[]])
    | some (.tableArray tables) => some (.tableArray (tables ++ [[]]))
    | some _ => none) path .header root

/-- Adds a key, behind a path of dotted keys, to a table with a header or to an inline
table. A path has to end in a table that dotted keys made. -/
def assign (path : List (List Char)) (key : List Char) (value : Value) (entries : Entries) :
    Option Entries :=
  descend .dotted (fun origin inner =>
    if decide (origin = .dotted) = path.isEmpty then none
    else inner.alter key fun
      | none => some value
      | some _ => none) path .header entries

/-- Adds a key to the table that the last header named. -/
def assignIn (table path : List (List Char)) (key : List Char) (value : Value)
    (root : Entries) : Option Entries :=
  descend .passed (fun _ entries => assign path key value entries) table .header root

end Toml

end PrintJob

/-
# Settings files

A settings file is a TOML document with at most one entry, `estimator`, that names
estimator settings; what it does not name stays as it is. Unknown keys and values of
a wrong type make the file malformed.

* `SettingsFile.parse`: the settings that a document names.
* `SettingsFile.apply`: named settings replace others.
-/
import PrintJob.Estimator
import PrintJob.Toml.Document

namespace PrintJob

/-- The settings that a file names. -/
structure SettingsFile where
  feedRate : Option Binary64 := none
  policy : Option FeedPolicy := none
deriving DecidableEq

namespace Toml.Value

/-- The entries of a table, however it was written. -/
def entries? : Value → Option Entries
  | .table _ entries => some entries
  | .inlineTable entries => some entries
  | _ => none

/-- Whether a value is a table or an array that holds nothing. -/
def isVoid : Value → Bool
  | .table _ [] => true
  | .inlineTable [] => true
  | .array [] => true
  | _ => false

/-- The integers that can stand where a float is wanted. -/
def integerRange (n : Int) : Bool := decide (-((2 ^ 63 : Nat) : Int) ≤ n ∧ n < ((2 ^ 64 : Nat) : Int))

/-- The double nearest to an integer. -/
def ofInteger (n : Int) : Binary64 := .ofUnits false (n * Magnitude.one)

/-- A number; integers count as numbers. -/
def number? : Value → Option Binary64
  | .scalar (.float x) => some x
  | .scalar (.integer n) => if integerRange n then some (ofInteger n) else none
  | _ => none

/-- A feed policy: its name, or a table whose only key is its name and holds nothing. -/
def policy? : Value → Option FeedPolicy
  | .scalar (.string name) => FeedPolicy.ofName? (String.ofList name)
  | value =>
    match value.entries? with
    | some [(name, content)] =>
      if content.isVoid then FeedPolicy.ofName? (String.ofList name) else none
    | _ => none

end Toml.Value

namespace SettingsFile

/-- Takes in one entry of the settings. -/
def readEntry (settings : SettingsFile) (entry : List Char × Toml.Value) : Option SettingsFile :=
  if entry.1 = "default_feed_rate".toList then
    entry.2.number?.map fun rate => { settings with feedRate := some rate }
  else if entry.1 = "zero_feed_policy".toList then
    entry.2.policy?.map fun policy => { settings with policy := some policy }
  else none

/-- The settings in a table of entries, or in an array that gives the feed rate and the
policy in this order. -/
def ofValue (value : Toml.Value) : Option SettingsFile :=
  match value with
  | .array (rate :: policy :: _) => do
    return { feedRate := some (← rate.number?), policy := some (← policy.policy?) }
  | _ => value.entries?.bind fun entries => entries.foldlM readEntry {}

/-- The settings that the table of a document names. -/
def ofDocument : Toml.Entries → Option SettingsFile
  | [] => some {}
  | [(key, value)] => if key = "estimator".toList then ofValue value else none
  | _ => none

/-- The settings that a text names, if it is well-formed. -/
def parse (text : List Char) : Option SettingsFile := (Toml.parse text).bind ofDocument

/-- Replaces the settings that a file names. -/
def apply (file : SettingsFile) (settings : EstimatorSettings) : EstimatorSettings where
  feedRate := file.feedRate.getD settings.feedRate
  policy := file.policy.getD settings.policy

@[simp]
theorem apply_empty (settings : EstimatorSettings) : apply {} settings = settings := rfl

end SettingsFile

end PrintJob

/-
# Reading JSON

A text in JSON denotes a value. Blanks may stand between all its parts, strings may use
every escape there is, characters beyond the sixteen-bit ones also as a pair of surrogates,
and numbers keep the text they are written with. The fields of an object are kept in the
order in which they stand. Values here are never truth values, so `true` and `false` are not
read.

* `Json.read`: the value that a text denotes.
* `Json.isNumber`: the texts of numbers.
-/
import PrintJob.Decimal.Reading
import PrintJob.Json.Value

namespace PrintJob

namespace Json

/-- The blanks that may stand between the parts of a text. -/
def isSpace (c : Char) : Bool := c == ' ' || c == '\t' || c == '\n' || c == '\r'

/-- What follows the blanks at the start of a text. -/
def skipSpace (cs : List Char) : List Char := cs.dropWhile isSpace

/-! ## Numbers -/

/-- The characters that numbers consist of. -/
def isNumeric (c : Char) : Bool :=
  c.isDigit || c == '-' || c == '+' || c == '.' || c == 'e' || c == 'E'

/-- The digits before the point: at least one, and no zero in front of others. -/
def isWhole (ds : List Char) : Bool := ds == ['0'] || (ds != [] && ds.head? != some '0')

/-- What may follow the whole part: a point with at least one digit, and an exponent. Both
may be absent. -/
def isScale : List Char → Bool
  | '.' :: rest =>
    !(rest.takeWhile Char.isDigit).isEmpty &&
      (Decimal.readScale (rest.dropWhile Char.isDigit)).isSome
  | rest => (Decimal.readScale rest).isSome

/-- A number without its sign. -/
def isUnsigned (cs : List Char) : Bool :=
  isWhole (cs.takeWhile Char.isDigit) && isScale (cs.dropWhile Char.isDigit)

/-- The texts of numbers; the sign can only be a minus. -/
def isNumber : List Char → Bool
  | '-' :: rest => isUnsigned rest
  | cs => isUnsigned cs

/-- The number at the start of a text, and what follows it. -/
def readNumber (cs : List Char) : Option (Json × List Char) :=
  if isNumber (cs.takeWhile isNumeric) then
    some (.number (cs.takeWhile isNumeric), cs.dropWhile isNumeric)
  else none

/-! ## Strings -/

/-- The value of a hexadecimal digit. -/
def hexValue (c : Char) : Option Nat :=
  if c.isDigit then some (digitValue c)
  else if 'a' ≤ c ∧ c ≤ 'f' then some (c.toNat - 'a'.toNat + 10)
  else if 'A' ≤ c ∧ c ≤ 'F' then some (c.toNat - 'A'.toNat + 10)
  else none

/-- The number that hexadecimal digits denote after some others. -/
def readHex : Nat → List Char → Option Nat
  | n, [] => some n
  | n, c :: cs => (hexValue c).bind fun d => readHex (16 * n + d) cs

/-- What a backslash and one character stand for. -/
def unescape (c : Char) : Option Nat :=
  if c = '"' ∨ c = '\\' ∨ c = '/' then some c.toNat
  else if c = 'b' then some 8
  else if c = 'f' then some 12
  else if c = 'n' then some 10
  else if c = 'r' then some 13
  else if c = 't' then some 9
  else none

/-- Puts a number in front of those read. -/
def consCode (code : Nat) (codes : List Nat × List Char) : List Nat × List Char :=
  (code :: codes.1, codes.2)

/-- The codes of the characters up to the closing quote, and what follows it. Control
characters stand in a string only with an escape. -/
def readCodes : List Char → Option (List Nat × List Char)
  | [] => none
  | '"' :: rest => some ([], rest)
  | '\\' :: 'u' :: a :: b :: c :: d :: rest =>
    (readHex 0 [a, b, c, d]).bind fun code => (readCodes rest).map (consCode code)
  | '\\' :: c :: rest => (unescape c).bind fun code => (readCodes rest).map (consCode code)
  | c :: rest =>
    if c.toNat < 32 ∨ c = '\\' then none else (readCodes rest).map (consCode c.toNat)

/-- The first half of a pair of surrogates. -/
def isLead (code : Nat) : Bool := decide (0xD800 ≤ code ∧ code < 0xDC00)

/-- The second half of a pair of surrogates. -/
def isTrail (code : Nat) : Bool := decide (0xDC00 ≤ code ∧ code < 0xE000)

/-- The characters with some codes; surrogates stand for a character in pairs only. -/
def ofCodes : List Nat → Option (List Char)
  | [] => some []
  | [code] => if isLead code || isTrail code then none else some [Char.ofNat code]
  | code :: next :: rest =>
    if isLead code && isTrail next then
      (ofCodes rest).map (Char.ofNat (0x10000 + 0x400 * (code - 0xD800) + (next - 0xDC00)) :: ·)
    else if isLead code || isTrail code then none
    else (ofCodes (next :: rest)).map (Char.ofNat code :: ·)

/-- The string up to the closing quote, and what follows it. -/
def readString (cs : List Char) : Option (String × List Char) :=
  (readCodes cs).bind fun codes =>
    (ofCodes codes.1).map fun text => (String.ofList text, codes.2)

/-! ## Values -/

/-- Items with commas between them, up to the closing bracket, and what follows it. There
are at most as many items as characters, which is what `fuel` counts. -/
def readList {α : Type} (readItem : List Char → Option (α × List Char)) (close : Char) :
    Nat → List Char → Option (List α × List Char)
  | 0, _ => none
  | fuel + 1, cs =>
    match readItem cs with
    | none => none
    | some (item, rest) =>
      match skipSpace rest with
      | [] => none
      | c :: rest =>
        if c = ',' then
          (readList readItem close fuel rest).map fun items => (item :: items.1, items.2)
        else if c = close then some ([item], rest)
        else none

/-- A list of items that may be empty, after its opening bracket. -/
def readBrackets {α : Type} (readItem : List Char → Option (α × List Char)) (close : Char)
    (cs : List Char) : Option (List α × List Char) :=
  match skipSpace cs with
  | [] => none
  | c :: rest => if c = close then some ([], rest) else readList readItem close cs.length cs

/-- A name, a colon and a value. -/
def readField (readItem : List Char → Option (Json × List Char)) (cs : List Char) :
    Option ((String × Json) × List Char) :=
  match skipSpace cs with
  | '"' :: rest =>
    (readString rest).bind fun name =>
      match skipSpace name.2 with
      | ':' :: rest => (readItem rest).map fun value => ((name.1, value.1), value.2)
      | _ => none
  | _ => none

/-- The value at the start of a text, and what follows it. No value contains others to a
greater depth than it has characters, and the depth is what `fuel` counts. -/
def readValue : Nat → List Char → Option (Json × List Char)
  | 0, _ => none
  | fuel + 1, cs =>
    match skipSpace cs with
    | '"' :: rest => (readString rest).map fun text => (.string text.1, text.2)
    | '[' :: rest =>
      (readBrackets (readValue fuel) ']' rest).map fun items => (.array items.1, items.2)
    | '\x7b' :: rest =>
      (readBrackets (readField (readValue fuel)) '\x7d' rest).map fun fields =>
        (.object fields.1, fields.2)
    | 'n' :: 'u' :: 'l' :: 'l' :: rest => some (.null, rest)
    | rest => readNumber rest

/-- The value that a text denotes; nothing but blanks may stand around it. -/
def read (cs : List Char) : Option Json :=
  match readValue cs.length cs with
  | some (value, rest) => if skipSpace rest = [] then some value else none
  | none => none

end Json

end PrintJob

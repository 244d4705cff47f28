/-
# TOML text and strings

Blanks, line ends and comments, and the four forms of strings. A scanner takes the
text ahead and gives what it read together with the rest; it gives nothing if the
text is malformed.
-/
import PrintJob.Decimal.Digits

namespace PrintJob

namespace Toml

/-! ## Characters -/

/-- Blanks within a line. -/
def isSpace (c : Char) : Bool := c == ' ' || c == '\t'

/-- Whether a character may stand in comments and strings: not a control character,
tabs apart. -/
def isPrintable (c : Char) : Bool :=
  c == '\t' || (decide (32 ≤ c.toNat) && c.toNat != 127)

/-- Whether a key may hold a character without quotes. -/
def isBareKeyChar (c : Char) : Bool := c.isAlphanum || c == '-' || c == '_'

/-- The quote of literal strings. -/
def apostrophe : Char := '\x27'

/-- Whether a character begins a string. -/
def isQuote (c : Char) : Bool := c == '"' || c == apostrophe

/-- The characters that end a value without quotes. -/
def valueEnds : List Char := ['=', ',', '[', ']', '\x7b', '\x7d', '#', ' ', '\t', '\r', '\n']

/-- Whether a value without quotes may hold a character. -/
def isBareValueChar (c : Char) : Bool := !valueEnds.contains c

/-! ## Blanks and line ends -/

/-- The text after blanks. -/
def skipSpaces (cs : List Char) : List Char := cs.dropWhile isSpace

/-- The text after a line end. -/
def readNewline : List Char → Option (List Char)
  | '\n' :: rest => some rest
  | '\r' :: '\n' :: rest => some rest
  | _ => none

/-- The text after a comment, if there is one. -/
def skipComment : List Char → List Char
  | '#' :: rest => rest.dropWhile isPrintable
  | cs => cs

/-- The text after blanks, comments and line ends; `fuel` bounds the number of lines. -/
def skipTriviaLines : Nat → List Char → List Char
  | 0, cs => cs
  | fuel + 1, cs =>
    match readNewline (skipComment (skipSpaces cs)) with
    | some rest => skipTriviaLines fuel rest
    | none => skipSpaces cs

/-- The text after blanks, comments and line ends. -/
def skipTrivia (cs : List Char) : List Char := skipTriviaLines (cs.length + 1) cs

/-- The text after the rest of a line, which may hold a comment. -/
def endLine (cs : List Char) : Option (List Char) :=
  match skipComment (skipSpaces cs) with
  | [] => some []
  | rest => readNewline rest

/-! ## Escapes -/

/-- The value of a hexadecimal digit in either case. -/
def hexValue (c : Char) : Option Nat :=
  if c.isDigit then some (digitValue c)
  else if 'a' ≤ c ∧ c ≤ 'f' then some (c.toNat - 'a'.toNat + 10)
  else if 'A' ≤ c ∧ c ≤ 'F' then some (c.toNat - 'A'.toNat + 10)
  else none

/-- The number that hexadecimal digits denote. -/
def ofHex (cs : List Char) : Option Nat :=
  cs.foldl (fun n c => do return 16 * (← n) + (← hexValue c)) (some 0)

/-- The character whose code point is written with exactly `count` digits. -/
def readCodePoint (count : Nat) (cs : List Char) : Option (Char × List Char) :=
  if (cs.take count).length = count then
    (ofHex (cs.take count)).bind fun n =>
      if n.isValidChar then some (Char.ofNat n, cs.drop count) else none
  else none

/-- The character that an escape stands for, from the character after the backslash. -/
def readEscape : List Char → Option (Char × List Char)
  | [] => none
  | c :: rest =>
    match c with
    | 'b' => some (Char.ofNat 8, rest)
    | 't' => some ('\t', rest)
    | 'n' => some ('\n', rest)
    | 'f' => some (Char.ofNat 12, rest)
    | 'r' => some ('\r', rest)
    | 'e' => some (Char.ofNat 27, rest)
    | '"' => some ('"', rest)
    | '\\' => some ('\\', rest)
    | 'x' => readCodePoint 2 rest
    | 'u' => readCodePoint 4 rest
    | 'U' => readCodePoint 8 rest
    | _ => none

/-! ## Strings -/

/-- Puts a character in front of what was read after it. -/
def consRead (c : Char) (read : Option (List Char × List Char)) :
    Option (List Char × List Char) :=
  read.map fun (text, rest) => (c :: text, rest)

/-- A string in quotes on one line, after the opening quote. -/
def readBasic : Nat → List Char → Option (List Char × List Char)
  | 0, _ => none
  | _ + 1, [] => none
  | fuel + 1, c :: rest =>
    if c = '"' then some ([], rest)
    else if c = '\\' then
      (readEscape rest).bind fun (e, after) => consRead e (readBasic fuel after)
    else if isPrintable c then consRead c (readBasic fuel rest)
    else none

/-- A literal string on one line, after the opening quote. -/
def readLiteral : List Char → Option (List Char × List Char)
  | [] => none
  | c :: rest =>
    if c = apostrophe then some ([], rest)
    else if isPrintable c then consRead c (readLiteral rest)
    else none

/-- Quotes inside a string of several lines: up to two are text, three end the string,
and up to two before these are text. -/
def readQuotes (quoteChar : Char) (cs : List Char) : Option (Bool × List Char × List Char) :=
  let count := (cs.takeWhile (· == quoteChar)).length
  let rest := cs.dropWhile (· == quoteChar)
  if count ≤ 2 then some (false, List.replicate count quoteChar, rest)
  else if count ≤ 5 then some (true, List.replicate (count - 3) quoteChar, rest)
  else none

/-- The text after blanks and line ends; `fuel` bounds the number of lines. -/
def skipBlankLines : Nat → List Char → List Char
  | 0, cs => cs
  | fuel + 1, cs =>
    match readNewline (skipSpaces cs) with
    | some rest => skipBlankLines fuel rest
    | none => skipSpaces cs

/-- The text after the backslash at the end of a line: all blanks and line ends that
follow are left out. -/
def skipLineEnd (cs : List Char) : Option (List Char) :=
  (readNewline (skipSpaces cs)).map fun rest => skipBlankLines (rest.length + 1) rest

/-- A string of several lines, after the opening quotes. Escapes have a meaning only
between double quotes. -/
def readLong (quoteChar : Char) : Nat → List Char → Option (List Char × List Char)
  | 0, _ => none
  | _ + 1, [] => none
  | fuel + 1, c :: rest =>
    if c = quoteChar then
      (readQuotes quoteChar (c :: rest)).bind fun (ended, text, after) =>
        if ended then some (text, after)
        else (readLong quoteChar fuel after).map fun (more, last) => (text ++ more, last)
    else if c = '\\' ∧ quoteChar = '"' then
      -- before the end of a line the backslash joins lines, elsewhere it begins an escape
      match skipLineEnd rest with
      | some after => readLong quoteChar fuel after
      | none => (readEscape rest).bind fun (e, after) => consRead e (readLong quoteChar fuel after)
    else
      match readNewline (c :: rest) with
      | some after => consRead '\n' (readLong quoteChar fuel after)
      | none => if isPrintable c then consRead c (readLong quoteChar fuel rest) else none

/-- The text after a line end directly behind the opening quotes of a long string. -/
def skipFirstNewline (cs : List Char) : List Char := (readNewline cs).getD cs

/-- A string that begins with a quote, in any of the four forms. -/
def readString : List Char → Option (List Char × List Char)
  | '"' :: '"' :: '"' :: rest => readLong '"' (rest.length + 1) (skipFirstNewline rest)
  | '\x27' :: '\x27' :: '\x27' :: rest =>
    readLong apostrophe (rest.length + 1) (skipFirstNewline rest)
  | '"' :: rest => readBasic (rest.length + 1) rest
  | '\x27' :: rest => readLiteral rest
  | _ => none

end Toml

end PrintJob

/-
# Parsed lines

What a line says once it is split into tokens: a command with its parameters, a
comment alone, or nothing. A line has at most one command, its first; the words
that carry values belong to it wherever they stand.
-/
import PrintJob.Token
import PrintJob.Decimal.Reading

namespace PrintJob

/-- A value word: its letter and the text of its value. -/
structure Parameter where
  letter : Char
  value : List Char
deriving DecidableEq

/-- A command with the values and the comment on its line. -/
structure Command where
  name : List Char
  parameters : List Parameter
  comment : Option (List Char)
deriving DecidableEq

/-- What a line says. -/
inductive Line where
  | command (command : Command)
  | comment (text : List Char)
  | empty
deriving DecidableEq

/-! ## Values -/

/-- The value as a number; a text that denotes no finite number has none. -/
def Parameter.number (p : Parameter) : Option Binary64 := Binary64.readFinite p.value

/-- The number of the first parameter with this letter. If that one is malformed
there is none, even when a later one is well-formed. -/
def Command.value (command : Command) (letter : Char) : Option Binary64 :=
  (command.parameters.find? fun p => p.letter == letter).bind Parameter.number

/-! ## From tokens to lines -/

/-- The text of a comment without its delimiters. A parenthesis that is not closed
is kept. -/
def commentText : List Char → List Char
  | ';' :: rest => rest
  | '(' :: rest => if rest.getLast? = some ')' then rest.dropLast else '(' :: rest
  | text => text

/-- The parameter that a value word gives: a letter with at least one character
after it. -/
def Parameter.ofText : List Char → Option Parameter
  | letter :: c :: rest => if letter.isAlpha then some ⟨letter, c :: rest⟩ else none
  | _ => none

/-- The text of the first comment among tokens. -/
def firstComment (ts : List Token) : Option (List Char) :=
  (ts.find? fun t => t.kind == .comment).map fun t => commentText t.text

/-- The parameters that tokens give, in order. -/
def parametersOf (ts : List Token) : List Parameter :=
  (ts.filter fun t => t.kind == .parameter).filterMap fun t => Parameter.ofText t.text

/-- The line that tokens make up. -/
def Line.ofTokens (ts : List Token) : Line :=
  match ts.find? fun t => t.kind == .command with
  | some t => .command ⟨t.text, parametersOf ts, firstComment ts⟩
  | none =>
    match firstComment ts with
    | some text => .comment text
    | none => .empty

/-- What a line of text says. -/
def Line.parse (cs : List Char) : Line := Line.ofTokens (tokens cs)

end PrintJob

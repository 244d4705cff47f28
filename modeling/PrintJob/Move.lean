/-
# Positions and linear moves

A linear move is a line whose code, at the very start of the line, is a capital
`G` with the number zero or one. Its words give new values for some of the axes
and for the feed rate; what it does not give stays as it is.
-/
import PrintJob.Line

namespace PrintJob

/-! ## Positions -/

/-- Where the tool head and the extruder stand, in millimetres. -/
structure Position where
  x : Binary64
  y : Binary64
  z : Binary64
  e : Binary64
deriving DecidableEq

namespace Position

/-- Where every run starts. -/
def origin : Position := ⟨.zero, .zero, .zero, .zero⟩

/-- The length of the straight way from one position to another. The extruder does
not travel. -/
def distanceTo (p q : Position) : Binary64 :=
  ((q.x - p.x).hypot (q.y - p.y)).hypot (q.z - p.z)

end Position

/-! ## Moves -/

/-- The axis values and the feed rate that a move gives. -/
structure Move where
  x : Option Binary64 := none
  y : Option Binary64 := none
  z : Option Binary64 := none
  e : Option Binary64 := none
  feedRate : Option Binary64 := none
deriving DecidableEq

/-- Whether the line is a linear move. The number of its code may have leading
zeros, but a point directly after its digits makes it another code. -/
def isLinearMove : List Char → Bool
  | 'G' :: rest =>
    let number := rest.takeWhile Char.isDigit
    let code := number.dropWhile (· == '0')
    !number.isEmpty && (rest.dropWhile Char.isDigit).head? != some '.' &&
      (code == [] || code == ['1'])
  | _ => false

namespace Move

/-- The words of a command that matter to a move. -/
def ofCommand (command : Command) : Move where
  x := command.value 'X'
  y := command.value 'Y'
  z := command.value 'Z'
  e := command.value 'E'
  feedRate := command.value 'F'

/-- The move on a line, if the line is a linear move. -/
def parse (cs : List Char) : Option Move :=
  if isLinearMove cs then
    match Line.parse cs with
    | .command command => some (ofCommand command)
    | _ => none
  else none

/-- Where a move that starts at `start` ends. -/
def target (move : Move) (start : Position) : Position where
  x := move.x.getD start.x
  y := move.y.getD start.y
  z := move.z.getD start.z
  e := move.e.getD start.e

end Move

end PrintJob

import RobotMaze.Fault
import RobotMaze.Token.Hint

/-!
# The tokens of a line

A comment runs from `@` to the end of its line.  The rest is cut at blanks, and each piece is a
keyword, a name made of letters, or the fault of the line.  `Token.ofLine` gives all tokens or the
first fault.
-/

namespace RobotMaze

namespace Line

/-- The byte that starts a comment. -/
def commentMark : UInt8 := 64

/-- Whether a byte separates words: space, tab, carriage return, line feed, vertical tab or form
feed. -/
def isBlank (b : UInt8) : Bool :=
  b == 32 || b == 9 || b == 13 || b == 10 || b == 11 || b == 12

/-- The part of a line before its comment. -/
def stripComment (line : Text) : Text :=
  line.takeWhile fun b => b != commentMark

/-- A maximal run of bytes that are not blank, with the column of its first byte. -/
structure Piece where
  text : Text
  column : Nat
  deriving DecidableEq, Repr

/-- The pieces of a text in order; `seen` bytes stand before it since the last line feed. -/
def pieces (seen : Nat) : Text → List Piece
  | [] => []
  | b :: rest =>
    if isBlank b then
      pieces (if b = Text.lineFeed then 0 else seen + 1) rest
    else
      match rest, pieces (seen + 1) rest with
      | c :: _, p :: ps =>
        if isBlank c then ⟨[b], seen + 1⟩ :: p :: ps else ⟨b :: p.text, seen + 1⟩ :: ps
      | _, ps => ⟨[b], seen + 1⟩ :: ps

/-- The kind of a piece. -/
def kindOf (w : Text) : Kind :=
  match Kind.ofWord? w with
  | some k => k
  | none => if w.all Text.isAsciiLetter then .ident else .illegal

/-- What is wrong with a piece outside the language. -/
def faultOf (w : Text) : Fault :=
  if Text.hasPart ":=" w then .crampedAssignment else .invalidToken w (Hint.suggest w)

/-- The token of a piece that stands `lead` bytes further right on line `number`. -/
def tokenOf (number : Int) (lead : Nat) (p : Piece) : Except Error Token :=
  let column : Int := p.column + lead
  match kindOf p.text with
  | .illegal => .error { fault := faultOf p.text, line := number, column := column }
  | kind => .ok { kind := kind, literal := p.text, column := column }

end Line

/-- The tokens of a source line with the given number, or its first fault. -/
def Token.ofLine (line : Text) (number : Int) : Except Error (List Token) :=
  let body := Line.stripComment line
  let lead := (body.takeWhile Line.isBlank).length
  (Line.pieces 0 (body.dropWhile Line.isBlank)).mapM (Line.tokenOf number lead)

end RobotMaze

import RobotMaze.Fault

/-!
# Lexemes of an expression

The text of an expression is a row of keywords and names with blanks between them.  At each place
the keywords are tried first, longest first, and a keyword made of word characters must not run on
into another one; then comes a run of letters.
-/

namespace RobotMaze

/-- The classes of lexemes. -/
inductive LexemeSort where
  | keyword
  | name
  deriving DecidableEq, Repr

/-- A word of an expression with its byte offset. -/
structure Lexeme where
  sort : LexemeSort
  text : Text
  offset : Nat
  deriving DecidableEq, Repr

namespace Lexeme

/-- Whether a byte belongs to a word: a letter, a digit or an underscore. -/
def isWordByte (b : UInt8) : Bool :=
  Text.isAsciiLetter b || Text.isAsciiDigit b || b == 95

/-- Whether no word byte stands at the front of a text. -/
def atBoundary : Text → Bool
  | [] => true
  | b :: _ => !isWordByte b

/-- The keywords from the longest to the shortest, and in byte order among those of one length. -/
def longestFirst : List Kind :=
  [.sensor .frontIsClear, .action .throwAwayKey, .action .moveForward, .action .turnRight,
   .action .openDoor, .otherwise, .action .turnLeft, .action .pickKey, .sensor .atDoor,
   .sensor .atExit, .sensor .onKey, .truth false, .loop, .load, .truth true, .and, .close, .assign,
   .branch, .or, .preset .one, .preset .two, .preset .three]

/-- Whether a keyword stands at the front of a text.  Every keyword but `:=` is made of word bytes
and needs a boundary after it. -/
def startsWith (t : Text) (k : Kind) : Bool :=
  k.text.isPrefixOf t && (k == .assign || atBoundary (t.drop k.text.length))

/-- What stands at the front of a text. -/
inductive Front where
  | word (sort : LexemeSort) (length : Nat)
  | blanks (length : Nat)
  | nothing
  deriving DecidableEq, Repr

/-- Whether a byte separates lexemes. -/
def isBlank (b : UInt8) : Bool := b == Text.space || b == Text.tab

/-- What stands at the front of a text: a keyword, else a run of letters, else a run of blanks. -/
def front (t : Text) : Front :=
  match longestFirst.find? (startsWith t) with
  | some k => .word .keyword k.text.length
  | none =>
    match (t.takeWhile Text.isAsciiLetter).length with
    | n + 1 => .word .name (n + 1)
    | 0 =>
      match (t.takeWhile isBlank).length with
      | n + 1 => .blanks (n + 1)
      | 0 => .nothing

/-- The lexemes of a text at `offset`, of which the first `skip` bytes are already read. -/
def scanFrom : (offset skip : Nat) → Text → Except ExprProblem (List Lexeme)
  | _, _, [] => .ok []
  | offset, skip + 1, _ :: rest => scanFrom (offset + 1) skip rest
  | offset, 0, b :: rest =>
    match front (b :: rest) with
    | .word sort length =>
      (scanFrom (offset + 1) (length - 1) rest).map
        ({ sort := sort, text := (b :: rest).take length, offset := offset } :: ·)
    | .blanks length => scanFrom (offset + 1) (length - 1) rest
    | .nothing => .error (.unreadable (b :: rest))

/-- The lexemes of a text, or the place where none stands. -/
def scan (t : Text) : Except ExprProblem (List Lexeme) := scanFrom 0 0 t

end Lexeme

end RobotMaze

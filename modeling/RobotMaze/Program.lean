import RobotMaze.Token.Line

/-!
# Programs

A program is a list of raw lines, numbered from one.  Lines are split into tokens only when they are
asked for, so a line that is never reached may hold anything.

Searches through a program are written for any way to look up the tokens of a line, which may
remember them.
-/

namespace RobotMaze

/-- Why a computation on a program ends without a value. -/
inductive Stop where
  | failed (e : Error)
  /-- A line or a token that does not exist was asked for, or a maze that is too large. -/
  | outOfRange
  /-- A loop took more rounds than it was granted. -/
  | unfinished
  deriving DecidableEq, Repr

/-- A source as its raw lines. -/
structure Program where
  lines : List Text
  deriving DecidableEq, Repr

/-- The last of the first `n` lines that has tokens, or zero, as `tokens` looks lines up. -/
def Scan.lastUpTo {m : Type → Type} [Monad m] (tokens : Int → m (List Token)) : (n : Nat) → m Int
  | 0 => return 0
  | n + 1 => do
    match ← tokens (n + 1) with
    | [] => lastUpTo tokens n
    | _ => return n + 1

namespace Program

/-- The program of a source: lines end at line feeds, and a carriage return before one belongs to
the line end. -/
def ofSource (src : Text) : Program :=
  ⟨(Text.splitOn Text.lineFeed src).map (Text.dropLast? Text.carriageReturn)⟩

/-- The number of raw lines. -/
def size (p : Program) : Nat := p.lines.length

/-- The raw line with a number. -/
def line? (p : Program) (n : Int) : Option Text :=
  if 1 ≤ n then p.lines[(n - 1).toNat]? else none

/-- The tokens of the line with a number; blank lines and comments have none. -/
def tokens (p : Program) (n : Int) : Except Stop (List Token) :=
  match p.line? n with
  | some line => (Token.ofLine line n).mapError .failed
  | none => .error .outOfRange

/-- The last of the first `n` lines that has tokens, or zero. -/
def lastUpTo (p : Program) (n : Nat) : Except Stop Int := Scan.lastUpTo p.tokens n

/-- The last line that has tokens, or zero if there is none.  Lines are read from the end, and the
first that has a fault ends the search. -/
def last (p : Program) : Except Stop Int := p.lastUpTo p.size

theorem lastUpTo_succ (p : Program) (n : Nat) :
    p.lastUpTo (n + 1) = (do
      match ← p.tokens (n + 1) with
      | [] => p.lastUpTo n
      | _ => return n + 1) := rfl

end Program

end RobotMaze

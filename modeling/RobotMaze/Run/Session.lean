import RobotMaze.Expr.Eval
import RobotMaze.Maze.Load
import RobotMaze.Program.Block
import RobotMaze.Run.Journal

/-!
# The state of a run

A session is what a run knows at a moment: the variables, the maze, how far it has come, its
journal, and what it has already worked out about its program.  A step of a run may fail, and what
it did before it failed stays done.
-/

namespace RobotMaze

/-- Values remembered by line number, the latest first. -/
abbrev Table (α : Type) := List (Int × α)

/-- What a session has worked out about its program. -/
structure Memo where
  tokens : Table (List Token) := []
  last : Option Int := none
  blocks : Table Block := []
  exprs : Table Expr := []
  deriving DecidableEq, Repr

/-- The state of a run. -/
structure Session extends Scene where
  /-- How many lines with tokens were executed. -/
  executed : Nat := 0
  warnings : Array Rejected := #[]
  journal : Array Entry := #[]
  memo : Memo := {}
  deriving DecidableEq, Repr

/-- What is fixed for a run. -/
structure Config where
  loader : Loader
  /-- The number of iterations after which a loop fails; there is no such number if it is not
  positive. -/
  cap : Int := 0

/-- A step of a run. -/
abbrev Step := EStateM Stop Session

/-- What to do after a statement. -/
inductive Flow where
  /-- Go on with the next line. -/
  | next
  /-- Go on with another line. -/
  | jump (line : Int)
  /-- End the whole run. -/
  | halt
  deriving DecidableEq, Repr

namespace Step

/-- Ends the run with a fault at a place. -/
def fail {α : Type} (fault : Fault) (line : Int) (column : Int) : Step α :=
  throw (.failed { fault := fault, line := line, column := column })

/-- The value of a computation on the program, or its failure. -/
def ofExcept {α : Type} : Except Stop α → Step α
  | .ok a => pure a
  | .error e => throw e

/-- Writes an entry into the journal. -/
def note (e : Entry) : Step Unit :=
  modify fun s => { s with journal := s.journal.push e }

end Step

end RobotMaze

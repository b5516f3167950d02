import RobotMaze.Run.Exec

/-!
# Runs

`Run.run` executes a source from an empty session.  Its outcome is the last flow or the reason to
stop, with the session as it was left.
-/

namespace RobotMaze.Run

/-- How a run ends. -/
structure Outcome where
  ending : Except Stop Flow
  session : Session

/-- The summary of a run. -/
structure Result where
  /-- Whether the run came to its last line or opened the way out. -/
  halted : Bool
  solved : Bool
  maze : Option Maze
  env : Env
  warnings : List Rejected
  executed : Nat
  deriving DecidableEq, Repr

/-- The outcome of a step from a session. -/
def Outcome.ofStep (step : Step Flow) (s : Session) : Outcome :=
  match step s with
  | .ok flow s => ⟨.ok flow, s⟩
  | .error stop s => ⟨.error stop, s⟩

/-- The summary of a session. -/
def summary (halted : Bool) (s : Session) : Result where
  halted := halted
  solved := s.maze.any Maze.isSolved
  maze := s.maze
  env := s.env
  warnings := s.warnings.toList
  executed := s.executed

/-- The summary of a run that ended, or why it did not. -/
def Outcome.result (o : Outcome) : Except Stop Result :=
  o.ending.map fun flow => summary (flow == .halt) o.session

/-- The actions of a run. -/
def Outcome.events (o : Outcome) : List Event := Journal.events o.session.journal.toList

/-- The log of a run. -/
def Outcome.log (o : Outcome) (v : Verbosity) : Text := Journal.log v o.session.journal.toList

/-- Executes a source, granting each entry of a loop `limit` rounds. -/
def run (c : Config) (limit : Nat) (src : Text) : Outcome :=
  Outcome.ofStep (Exec.program (Reader.kept (Program.ofSource src)) c limit) {}

/-- Executes a source without remembering anything about it. -/
def runFresh (c : Config) (limit : Nat) (src : Text) : Outcome :=
  Outcome.ofStep (Exec.program (Reader.fresh (Program.ofSource src)) c limit) {}

end RobotMaze.Run

import RobotMaze.Maze.Basic

/-!
# Actions

`Maze.perform` carries out one action.  A rejected action has a reason and leaves the maze alone.
-/

namespace RobotMaze

/-- Why the robot cannot carry out an action. -/
inductive Rejection where
  | frontBlocked
  | notOnKey
  | notAtDoor
  | noKey
  | wrongKey
  deriving DecidableEq, Repr

/-- An action that was rejected. -/
structure Rejected where
  action : Action
  reason : Rejection
  deriving DecidableEq, Repr

/-- The wording of a reason. -/
def Rejection.message : Rejection → Text
  | .frontBlocked => "front is not clear"
  | .notOnKey => "not on a key"
  | .notAtDoor => "not at the door"
  | .noKey => "no key"
  | .wrongKey => "wrong key, door does not open"

/-- The action and the wording of the reason. -/
def Rejected.text (r : Rejected) : Text := r.action.word ++ ": " ++ r.reason.message

namespace Maze

/-- The maze with the robot one cell further. -/
def moveForward (m : Maze) : Except Rejection Maze :=
  if m.frontIsClear then
    let front := m.robot.front
    .ok { m with
      grid := (m.grid.remove m.robot.location .robot).place front .robot
      robot := { m.robot with location := front } }
  else
    .error .frontBlocked

/-- The maze with the robot turned. -/
def turn (m : Maze) (f : Heading → Heading) : Maze :=
  { m with robot := { m.robot with facing := f m.robot.facing } }

/-- The maze with the key under the robot picked. -/
def pickKey (m : Maze) : Except Rejection Maze :=
  if m.onKey then
    .ok { m with
      hasKey := true
      hasCorrectKey := m.hasCorrectKey || decide (m.robot.location = m.correctKey) }
  else
    .error .notOnKey

/-- The maze with the key thrown away. -/
def throwAwayKey (m : Maze) : Maze := { m with hasKey := false, hasCorrectKey := false }

/-- The maze with the way out opened.  The exit is always open; the door needs a key, and the
correct one if there are several. -/
def openDoor (m : Maze) : Except Rejection Maze :=
  if m.atExit then .ok { m with hasOpenedDoor := true }
  else if !m.atDoor then .error .notAtDoor
  else if !m.hasKey then .error .noKey
  else if m.hasSeveralKeys && !m.hasCorrectKey then .error .wrongKey
  else .ok { m with hasOpenedDoor := true }

/-- The maze after an action. -/
def perform (m : Maze) : Action → Except Rejection Maze
  | .moveForward => m.moveForward
  | .turnLeft => .ok (m.turn Heading.left)
  | .turnRight => .ok (m.turn Heading.right)
  | .pickKey => m.pickKey
  | .openDoor => m.openDoor
  | .throwAwayKey => .ok m.throwAwayKey

/-- The maze after an attempt at an action: a rejected action changes nothing. -/
def attempt (m : Maze) (a : Action) : Maze :=
  match m.perform a with
  | .ok next => next
  | .error _ => m

end Maze

end RobotMaze

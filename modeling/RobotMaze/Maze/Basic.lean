import RobotMaze.Maze.Cell
import RobotMaze.Vocabulary

/-!
# The maze

A maze is a grid with the robot, the places of its keys, its door and its exit, and what the robot
has done with them.  A key stays on its cell when it is picked, so a key that was thrown away can be
picked again.
-/

namespace RobotMaze

/-- The grid with the robot and what it carries.  The grid has a ring of walls around `length` rows
of `width` cells. -/
structure Maze where
  name : Text := []
  width : Nat
  length : Nat
  grid : Grid
  robot : Robot
  keys : List Point
  /-- The key that opens the door if there are several. -/
  correctKey : Point
  door : Point
  exit : Point
  hasKey : Bool := false
  hasCorrectKey : Bool := false
  hasOpenedDoor : Bool := false
  deriving DecidableEq, Repr

namespace Maze

/-- The cell at a point. -/
def cellAt (m : Maze) (p : Point) : Cell := m.grid.cellAt p

/-- Whether the robot can stand on a point. -/
def isFree (m : Maze) (p : Point) : Bool := !(m.cellAt p).has .wall

/-- The cell under the robot. -/
def here (m : Maze) : Cell := m.cellAt m.robot.location

/-- Whether the cell before the robot is free. -/
def frontIsClear (m : Maze) : Bool := m.isFree m.robot.front

/-- Whether the robot is on a key. -/
def onKey (m : Maze) : Bool := m.here.has .key

/-- Whether the robot is on the door. -/
def atDoor (m : Maze) : Bool := m.here.has .door

/-- Whether the robot is on the exit. -/
def atExit (m : Maze) : Bool := m.here.has .exit

/-- Whether only one of several keys opens the door. -/
def hasSeveralKeys (m : Maze) : Bool := m.keys.length > 1

/-- Whether the robot has found its way out. -/
def isSolved (m : Maze) : Bool := m.atExit || m.hasOpenedDoor

/-- What a sensor of the robot shows. -/
def sense (m : Maze) : Sensor → Bool
  | .frontIsClear => m.frontIsClear
  | .onKey => m.onKey
  | .atDoor => m.atDoor
  | .atExit => m.atExit

end Maze

end RobotMaze

import RobotMaze.Maze.Basic

/-!
# Drawing a maze

One line per row with spaces between the cells, the robot as an arrow, and a last line about the
robot.
-/

namespace RobotMaze.Maze

/-- The sign that draws a cell when the robot faces `facing`: the robot hides everything, then come
wall, door, exit and key. -/
def sign (facing : Heading) (c : Cell) : Text :=
  if c.has .robot then facing.arrow
  else if c.has .wall then [Mark.wall.byte]
  else if c.has .door then [Mark.door.byte]
  else if c.has .exit then [Mark.exit.byte]
  else if c.has .key then [Mark.key.byte]
  else [Mark.floorByte]

/-- A row of the drawing. -/
def renderRow (facing : Heading) (row : List Cell) : Text :=
  Text.join [Text.space] (row.map (sign facing)) ++ [Text.lineFeed]

/-- The drawing of a maze. -/
def render (m : Maze) : Text :=
  m.grid.flatMap (renderRow m.robot.facing)
    ++ ("robot " ++ m.robot.text ++ ", key: " ++ Text.ofBool m.hasKey ++ ", door opened: "
      ++ Text.ofBool m.hasOpenedDoor ++ "\n")

end RobotMaze.Maze

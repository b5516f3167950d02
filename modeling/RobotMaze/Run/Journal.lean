import RobotMaze.Maze.Action
import RobotMaze.Run.Log

/-!
# The journal of a run

A run writes down what it does, in order.  The log and the list of robot actions are views of the
journal.
-/

namespace RobotMaze

/-- An action of the robot, accepted or not, with the maze after it. -/
structure Event where
  line : Int
  action : Action
  rejection : Option Rejection
  maze : Maze
  deriving DecidableEq, Repr

/-- The rejected action, if the action was rejected. -/
def Event.rejected? (e : Event) : Option Rejected :=
  e.rejection.map fun reason => ⟨e.action, reason⟩

/-- What a run does. -/
inductive Entry where
  /-- A line is executed; `words` are its tokens with single spaces between them. -/
  | line (number : Int) (words : Text)
  /-- A maze is loaded. -/
  | loaded (number : Int) (preset : PresetNumber) (maze : Maze)
  /-- The robot acts. -/
  | acted (event : Event)
  /-- The robot has opened the way out. -/
  | solved (number : Int)
  /-- A variable is set. -/
  | assigned (number : Int) (name : Text) (value : Bool)
  deriving DecidableEq, Repr

namespace Entry

/-- What the log says about an entry. -/
def message : Entry → Log.Message
  | line number words => ⟨.debug, "line " ++ Text.ofInt number ++ ": " ++ words⟩
  | loaded number preset maze =>
    ⟨.debug, "line " ++ Text.ofInt number ++ ": loaded preset " ++ preset.word ++ " (" ++ maze.name
      ++ "), robot " ++ maze.robot.text⟩
  | acted event =>
    match event.rejected? with
    | some rejected => ⟨.warning, "line " ++ Text.ofInt event.line ++ ": " ++ rejected.text⟩
    | none =>
      ⟨.debug, "line " ++ Text.ofInt event.line ++ ": " ++ event.action.word ++ " -> robot "
        ++ event.maze.robot.text⟩
  | solved number => ⟨.debug, "line " ++ Text.ofInt number ++ ": maze solved"⟩
  | assigned number name value =>
    ⟨.debug, "line " ++ Text.ofInt number ++ ": " ++ name ++ " = " ++ Text.ofBool value⟩

/-- The action of an entry, if it is one. -/
def event? : Entry → Option Event
  | acted event => some event
  | _ => none

end Entry

namespace Journal

/-- What is logged of a list of entries. -/
def log (v : Verbosity) (entries : List Entry) : Text :=
  entries.flatMap fun e => e.message.render v

/-- The actions in a list of entries. -/
def events (entries : List Entry) : List Event := entries.filterMap Entry.event?

end Journal

end RobotMaze

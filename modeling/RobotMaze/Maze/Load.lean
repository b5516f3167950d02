import RobotMaze.Maze.Build

/-!
# Loading mazes

A run asks a loader for the maze with a preset number.  `Maze.loadRoom` loads an open room.
-/

namespace RobotMaze

/-- Why a maze cannot be loaded. -/
inductive LoadError where
  | invalid (issues : List Issue)
  | unknownPreset (id : Text)
  | noVariant (id : Text) (count : Nat) (variant : Int)
  /-- The grid of the maze would have a side that is too long. -/
  | tooLarge
  /-- Any other reason. -/
  | other (message : Text)
  deriving DecidableEq, Repr

/-- The wording of a reason. -/
def LoadError.message : LoadError → Text
  | .invalid issues => Issue.summary issues
  | .unknownPreset id => "unknown preset " ++ Text.quoted id
  | .noVariant id count variant =>
    "preset " ++ Text.quoted id ++ " has " ++ Text.ofNat count ++ " variants, no variant "
      ++ Text.ofInt variant
  | .tooLarge => "maze too large"
  | .other message => message

/-- Where mazes come from. -/
abbrev Loader := PresetNumber → Except LoadError Maze

/-- The longest side of a room that can be laid out. -/
def Maze.maxSide : Int := 0x10000000000

/-- An open room with one key, one door and one exit, unless it is too large. -/
def Maze.loadRoom (width length : Int) (key door exit robot : Point) (facing : Int) :
    Except LoadError Maze :=
  if 1 ≤ width ∧ 1 ≤ length ∧ (maxSide < width ∨ maxSide < length) then .error .tooLarge
  else (Maze.room width length key door exit robot facing).mapError .invalid

end RobotMaze

import RobotMaze.Maze.Path
import RobotMaze.Text.Quoted

/-!
# Building mazes

`Maze.room` makes an open room with one key, `Maze.ofRows` reads a drawn map.  Both report every
problem they find as a list of `Issue`s.
-/

namespace RobotMaze

/-- What can be wrong with a maze. -/
inductive Issue where
  | noSpace
  | xOutOfRange (what : String) (x : Int) (width : Int)
  | yOutOfRange (what : String) (y : Int) (length : Int)
  | unknownHeading (code : Int)
  | tooFewRows (count : Nat)
  | tooFewColumns (count : Nat)
  | unevenRow (row : Nat) (columns : Nat) (expected : Nat)
  | openBorder (p : Point) (byte : UInt8)
  | unknownByte (byte : UInt8) (p : Point)
  | robotCount (count : Nat)
  | doorCount (count : Nat)
  | exitCount (count : Nat)
  | noKeys
  | notAKey (p : Point)
  | ambiguousKey (count : Nat)
  | unreachable (what : String) (p : Point) (start : Point)
  | unknownHeadingName (name : Text)
  | malformedKey
  deriving DecidableEq, Repr

namespace Issue

/-- The wording of an issue. -/
def message : Issue → Text
  | noSpace => "width and length must be at least 1"
  | xOutOfRange what x width =>
    what ++ " x-coordinate " ++ Text.ofInt x ++ " must be between 1 and " ++ Text.ofInt width
  | yOutOfRange what y length =>
    what ++ " y-coordinate " ++ Text.ofInt y ++ " must be between 1 and " ++ Text.ofInt length
  | unknownHeading code => "invalid robot direction " ++ Text.ofInt code
  | tooFewRows count => "map needs at least 3 rows, got " ++ Text.ofNat count
  | tooFewColumns count => "map needs at least 3 columns, got " ++ Text.ofNat count
  | unevenRow row columns expected =>
    "row " ++ Text.ofNat row ++ " has " ++ Text.ofNat columns ++ " columns, want "
      ++ Text.ofNat expected
  | openBorder p byte => "border cell " ++ p.text ++ " must be wall, got " ++ Text.quotedByte byte
  | unknownByte byte p => "unknown map symbol " ++ Text.quotedByte byte ++ " at " ++ p.text
  | robotCount count => "map needs exactly one robot, got " ++ Text.ofNat count
  | doorCount count => "map needs exactly one door, got " ++ Text.ofNat count
  | exitCount count => "map needs exactly one exit, got " ++ Text.ofNat count
  | noKeys => "map needs at least one key"
  | notAKey p => "correct key " ++ p.text ++ " is not a key location"
  | ambiguousKey count => "map has " ++ Text.ofNat count ++ " keys but no correct key"
  | unreachable what p start =>
    what ++ " at " ++ p.text ++ " is not reachable from the robot at " ++ start.text
  | unknownHeadingName name => Heading.unknownName name
  | malformedKey => "correct_key must be a list of 2 integers"

/-- The text of a list of issues. -/
def summary (issues : List Issue) : Text :=
  "invalid maze: " ++ Text.join "; " (issues.map message)

end Issue

/-! ## Open rooms -/

namespace Maze

/-- The coordinates of a point that do not lie in the room. -/
def outOfRoom (width length : Int) (what : String) (p : Point) : List Issue :=
  (if p.x < 1 ∨ width < p.x then [.xOutOfRange what p.x width] else [])
    ++ (if p.y < 1 ∨ length < p.y then [.yOutOfRange what p.y length] else [])

/-- The issue of a number that stands for no heading. -/
def headingIssues (facing : Int) : List Issue :=
  match Heading.ofCode? facing with
  | some _ => []
  | none => [.unknownHeading facing]

/-- What is wrong with the description of a room. -/
def roomIssues (width length : Int) (key door exit robot : Point) (facing : Int) : List Issue :=
  outOfRoom width length "key" key ++ outOfRoom width length "door" door
    ++ outOfRoom width length "exit" exit ++ outOfRoom width length "robot" robot
    ++ headingIssues facing

/-- An open room with one key, one door and one exit, which may share cells. -/
def room (width length : Int) (key door exit robot : Point) (facing : Int) :
    Except (List Issue) Maze :=
  if width < 1 ∨ length < 1 then
    .error [.noSpace]
  else
    match roomIssues width length key door exit robot facing, Heading.ofCode? facing with
    | [], some heading =>
      let ground := Grid.room width.toNat length.toNat
      .ok {
        width := width.toNat
        length := length.toNat
        grid := (((ground.place key .key).place door .door).place exit .exit).place robot .robot
        robot := ⟨robot, heading⟩
        keys := [key]
        correctKey := key
        door := door
        exit := exit }
    | issues, _ => .error issues

/-! ## Drawn maps -/

/-- The cell that a byte of a map draws, if it draws one. -/
def cellOfByte? (b : UInt8) : Option Cell :=
  if b = Mark.floorByte then some Cell.empty
  else (Mark.all.find? fun m => m.byte == b).map Cell.only

/-- The issue of a byte on the map, if it has one. -/
def byteIssues (columns rows x y : Nat) (b : UInt8) : List Issue :=
  if Grid.isBorder columns rows x y && b != Mark.wall.byte then [.openBorder ⟨x, y⟩ b]
  else if (cellOfByte? b).isNone then [.unknownByte b ⟨x, y⟩]
  else []

/-- The issues of a row of the map. -/
def rowIssues (columns rows y : Nat) (row : Text) : List Issue :=
  if row.length ≠ columns then [.unevenRow y row.length columns]
  else row.zipIdx.flatMap fun (b, x) => byteIssues columns rows x y b

/-- The places of a mark on the map in row-major order; rows of a wrong length and the border do not
count. -/
def places (columns : Nat) (rows : List Text) (m : Mark) : List Point :=
  rows.zipIdx.flatMap fun (row, y) =>
    if row.length ≠ columns then []
    else row.zipIdx.filterMap fun (b, x) =>
      if b = m.byte ∧ !Grid.isBorder columns rows.length x y then some ⟨x, y⟩ else none

/-- The issue of a number of places that should be one. -/
def countIssues (places : List Point) (issue : Nat → Issue) : List Issue :=
  if places.length = 1 then [] else [issue places.length]

/-- The key that opens the door, or what is wrong with it. -/
def chooseKey (keys : List Point) (correctKey : Option Point) : Except Issue Point :=
  match keys, correctKey with
  | [], _ => .error .noKeys
  | _, some p => if keys.contains p then .ok p else .error (.notAKey p)
  | [p], none => .ok p
  | _, none => .error (.ambiguousKey keys.length)

/-- The issues of the key that opens the door. -/
def keyIssues (keys : List Point) (correctKey : Option Point) : List Issue :=
  match chooseKey keys correctKey with
  | .ok _ => []
  | .error issue => [issue]

/-- What is wrong with a map, apart from places that cannot be reached. -/
def mapIssues (columns : Nat) (rows : List Text) (facing : Int) (correctKey : Option Point) :
    List Issue :=
  (rows.zipIdx.flatMap fun (row, y) => rowIssues columns rows.length y row)
    ++ countIssues (places columns rows .robot) .robotCount
    ++ countIssues (places columns rows .door) .doorCount
    ++ countIssues (places columns rows .exit) .exitCount
    ++ keyIssues (places columns rows .key) correctKey
    ++ headingIssues facing

/-- The grid that a map draws. -/
def gridOfRows (rows : List Text) : Grid :=
  rows.map fun row => row.map fun b => (cellOfByte? b).getD Cell.empty

/-- The places that the robot must be able to reach and cannot. -/
def reachIssues (m : Maze) : List Issue :=
  [("correct key", m.correctKey), ("door", m.door), ("exit", m.exit)].filterMap fun (what, p) =>
    if (m.findPath m.robot.location p).isSome then none
    else some (.unreachable what p m.robot.location)

/-- The maze that a bordered map draws.  `correctKey` names the key that opens the door and is
needed if the map has several keys. -/
def ofRows (rows : List Text) (facing : Int) (correctKey : Option Point) :
    Except (List Issue) Maze :=
  let columns := (rows.headD []).length
  if rows.length < 3 then .error [.tooFewRows rows.length]
  else if columns < 3 then .error [.tooFewColumns columns]
  else
    let keys := places columns rows .key
    match mapIssues columns rows facing correctKey, places columns rows .robot,
        places columns rows .door, places columns rows .exit, chooseKey keys correctKey,
        Heading.ofCode? facing with
    | [], robot :: _, door :: _, exit :: _, .ok key, some heading =>
      let m : Maze := {
        width := columns - 2
        length := rows.length - 2
        grid := gridOfRows rows
        robot := ⟨robot, heading⟩
        keys := keys
        correctKey := key
        door := door
        exit := exit }
      match m.reachIssues with
      | [] => .ok m
      | issues => .error issues
    | issues, _, _, _, _, _ => .error issues

end Maze

end RobotMaze

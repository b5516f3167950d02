import RobotMaze.Text

/-!
# The words of the language

The language has a closed vocabulary: six robot actions, four sensors, three preset numbers and a
handful of statement words.  `Kind` classifies the words of a line; `Kind.keywords` lists the
vocabulary in byte order and `Kind.ofWord?` finds a word in it.
-/

namespace RobotMaze

/-- What the robot can be told to do. -/
inductive Action where
  | moveForward
  | turnLeft
  | turnRight
  | pickKey
  | openDoor
  | throwAwayKey
  deriving DecidableEq, Repr

/-- What the robot can be asked. -/
inductive Sensor where
  | frontIsClear
  | onKey
  | atDoor
  | atExit
  deriving DecidableEq, Repr

/-- The presets that a program can load. -/
inductive PresetNumber where
  | one
  | two
  | three
  deriving DecidableEq, Repr

/-- The classes of words. -/
inductive Kind where
  /-- A word outside the language. -/
  | illegal
  /-- A name made of letters. -/
  | ident
  | load
  /-- `IF`, which opens a block. -/
  | branch
  | otherwise
  /-- `WHILE`, which opens a block. -/
  | loop
  /-- `END`, which closes a block or the program. -/
  | close
  | and
  | or
  | truth (value : Bool)
  | action (a : Action)
  | sensor (s : Sensor)
  | preset (n : PresetNumber)
  | assign
  /-- No class of the language at all. -/
  | unknown
  deriving DecidableEq, Repr

namespace Action

/-- The keyword of an action. -/
def word : Action → String
  | moveForward => "MOVE_FORWARD"
  | turnLeft => "TURN_LEFT"
  | turnRight => "TURN_RIGHT"
  | pickKey => "PICK_KEY"
  | openDoor => "OPEN_DOOR"
  | throwAwayKey => "THROW_AWAY_KEY"

end Action

namespace Sensor

/-- The keyword of a sensor. -/
def word : Sensor → String
  | frontIsClear => "FRONT_IS_CLEAR"
  | onKey => "ON_KEY"
  | atDoor => "AT_DOOR"
  | atExit => "AT_EXIT"

end Sensor

namespace PresetNumber

/-- The keyword of a preset number. -/
def word : PresetNumber → String
  | one => "1"
  | two => "2"
  | three => "3"

end PresetNumber

namespace Kind

/-- The keyword of a kind that has one, and the name of the class for the others. -/
def word : Kind → String
  | illegal => "ILLEGAL"
  | ident => "IDENT"
  | load => "LOAD"
  | branch => "IF"
  | otherwise => "OTHERWISE"
  | loop => "WHILE"
  | close => "END"
  | and => "AND"
  | or => "OR"
  | truth true => "TRUE"
  | truth false => "FALSE"
  | action a => a.word
  | sensor s => s.word
  | preset n => n.word
  | assign => ":="
  | unknown => "UNKNOWN"

/-- The bytes of `Kind.word`. -/
def text (k : Kind) : Text := utf8 k.word

/-- All kinds of the language in the order of their numbers, the first number being zero. -/
def all : List Kind :=
  [illegal, ident, load, branch, otherwise, loop, close, and, or, truth true, truth false,
   action .moveForward, action .turnLeft, action .turnRight, action .pickKey, action .openDoor,
   action .throwAwayKey, sensor .frontIsClear, sensor .onKey, sensor .atDoor, sensor .atExit,
   preset .one, preset .two, preset .three, assign]

/-- The kinds that are keywords, in the byte order of their words. -/
def keywords : List Kind :=
  [preset .one, preset .two, preset .three, assign, and, sensor .atDoor, sensor .atExit, close,
   truth false, sensor .frontIsClear, branch, load, action .moveForward, sensor .onKey,
   action .openDoor, or, otherwise, action .pickKey, action .throwAwayKey, truth true,
   action .turnLeft, action .turnRight, loop]

/-- The keyword spelled by a text. -/
def ofWord? (w : Text) : Option Kind :=
  keywords.find? fun k => k.text == w

/-- Whether a kind is a sensor. -/
def isSensor : Kind → Bool
  | sensor _ => true
  | _ => false

/-- Whether a kind is an action. -/
def isAction : Kind → Bool
  | action _ => true
  | _ => false

/-- Whether a kind opens a block that an `END` closes. -/
def opensBlock : Kind → Bool
  | branch => true
  | loop => true
  | _ => false

/-- The keywords are listed in strict byte order. -/
theorem keywords_sorted : (keywords.map text).Pairwise (· < ·) := by decide

/-- A keyword is found by its own word. -/
theorem ofWord?_text {k : Kind} (h : k ∈ keywords) : ofWord? k.text = some k := by
  revert h k
  decide

end Kind

end RobotMaze

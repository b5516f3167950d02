import RobotMaze.Text.Atom

/-!
# Points, headings and the robot

Points count columns to the right and rows downwards from the top left corner of the outer wall.
The robot stands on a point and faces one of four headings; turning left runs through `Heading.all`
in order.

Headings are stored and exchanged as the numbers `0` to `3`.  `Heading.Code` is such a number before
it is checked.
-/

namespace RobotMaze

/-- A place on the grid. -/
structure Point where
  x : Int
  y : Int
  deriving DecidableEq, Repr

instance : Add Point where
  add p q := ⟨p.x + q.x, p.y + q.y⟩

/-- A point as `(x,y)`. -/
def Point.text (p : Point) : Text :=
  "(" ++ Text.ofInt p.x ++ "," ++ Text.ofInt p.y ++ ")"

/-- A compass heading. -/
inductive Heading where
  | north
  | west
  | south
  | east
  deriving DecidableEq, Repr

namespace Heading

/-- The headings in the order of turning left. -/
def all : List Heading := [north, west, south, east]

/-- The name of a heading. -/
def name : Heading → String
  | north => "north"
  | west => "west"
  | south => "south"
  | east => "east"

/-- The step taken when moving in a heading. -/
def offset : Heading → Point
  | north => ⟨0, -1⟩
  | west => ⟨-1, 0⟩
  | south => ⟨0, 1⟩
  | east => ⟨1, 0⟩

/-- The arrow that shows a heading. -/
def arrow : Heading → String
  | north => "▲"
  | west => "◄"
  | south => "▼"
  | east => "►"

/-- A quarter turn to the left. -/
def left : Heading → Heading
  | north => west
  | west => south
  | south => east
  | east => north

/-- A quarter turn to the right. -/
def right : Heading → Heading
  | north => east
  | west => north
  | south => west
  | east => south

/-- A turn to the right undoes a turn to the left. -/
@[simp] theorem right_left (h : Heading) : h.left.right = h := by cases h <;> rfl

/-- A turn to the left undoes a turn to the right. -/
@[simp] theorem left_right (h : Heading) : h.right.left = h := by cases h <;> rfl

/-! ## Names -/

/-- A character with the differences in case removed, as far as the names of the headings are
concerned; the long s is an s. -/
def foldCase (c : Char) : Char :=
  if c.toNat = 0x17F then 's' else c.toLower

/-- An atom with the differences in case removed. -/
def foldAtom : Text.Atom → Text.Atom
  | .char c => .char (foldCase c)
  | .stray b => .stray b

/-- The heading with a name, in any case. -/
def ofName? (t : Text) : Option Heading :=
  all.find? fun h => t.atoms.map foldAtom == (utf8 h.name).atoms

/-- What is said of a text that names no heading. -/
def unknownName (t : Text) : Text :=
  "direction must be one of: north, west, south, east. Got: " ++ t

/-! ## Numbers -/

/-- The number of a heading, not yet checked: a machine word. -/
abbrev Code := Int64

/-- The number of a heading. -/
def code : Heading → Code
  | north => 0
  | west => 1
  | south => 2
  | east => 3

/-- The heading with a number. -/
def ofCode? (n : Int) : Option Heading :=
  all.find? fun h => h.code.toInt == n

namespace Code

/-- The number after a turn to the left; the remainder takes the sign of the number. -/
def left (c : Code) : Code := (c + 1) % 4

/-- The number after a turn to the right; the remainder takes the sign of the number. -/
def right (c : Code) : Code := (c + 3) % 4

/-- The name of the heading with a number, or the number itself if there is none. -/
def text (c : Code) : Text :=
  match ofCode? c.toInt with
  | some h => h.name
  | none => "Direction(" ++ Text.ofInt c.toInt ++ ")"

/-- A place and the name of a heading at it. -/
def poseText (place : Point) (c : Code) : Text := place.text ++ " facing " ++ text c

end Code

/-- Turning left on numbers agrees with turning left. -/
theorem code_left (h : Heading) : h.left.code = Code.left h.code := by cases h <;> decide

/-- Turning right on numbers agrees with turning right. -/
theorem code_right (h : Heading) : h.right.code = Code.right h.code := by cases h <;> decide

/-- A heading is found by its number. -/
theorem ofCode?_code (h : Heading) : ofCode? h.code.toInt = some h := by cases h <;> decide

end Heading

/-- The pose of the robot. -/
structure Robot where
  location : Point
  facing : Heading
  deriving DecidableEq, Repr

namespace Robot

/-- The cell that the robot would enter by moving forward. -/
def front (r : Robot) : Point := r.location + r.facing.offset

/-- The place and the name of the heading. -/
def text (r : Robot) : Text := r.location.text ++ " facing " ++ r.facing.name

end Robot

end RobotMaze

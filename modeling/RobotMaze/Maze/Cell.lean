import RobotMaze.Maze.Heading

/-!
# Cells and the grid

A cell is a set of marks, one bit for each.  Three bits of the byte belong to no mark; they are
kept, so a cell that has only such bits shows nothing but is not empty.  A grid is a list of rows;
outside of it everything reads as wall.
-/

namespace RobotMaze

/-- What can stand on a cell. -/
inductive Mark where
  | wall
  | key
  | door
  | exit
  | robot
  deriving DecidableEq, Repr

/-- A set of marks. -/
structure Cell where
  bits : BitVec 8
  deriving DecidableEq, Repr

namespace Mark

/-- The marks in the order of their bits. -/
def all : List Mark := [wall, key, door, exit, robot]

/-- The bit of a mark. -/
def bit : Mark → Nat
  | wall => 0
  | key => 1
  | door => 2
  | exit => 3
  | robot => 4

/-- The byte that draws a mark. -/
def byte : Mark → UInt8
  | wall => 42
  | key => 75
  | door => 68
  | exit => 69
  | robot => 82

/-- The byte that draws a cell without marks. -/
def floorByte : UInt8 := 46

/-- Different marks have different bits. -/
theorem bit_inj {a b : Mark} (h : a.bit = b.bit) : a = b := by
  revert h
  cases a <;> cases b <;> simp [bit]

end Mark

namespace Cell

/-- The cell without marks. -/
def empty : Cell := ⟨0⟩

/-- Whether a mark is on a cell. -/
def has (c : Cell) (m : Mark) : Bool := c.bits.getLsbD m.bit

/-- The cell with one more mark. -/
def insert (c : Cell) (m : Mark) : Cell := ⟨c.bits ||| BitVec.twoPow 8 m.bit⟩

/-- The cell with one mark less. -/
def erase (c : Cell) (m : Mark) : Cell := ⟨c.bits &&& ~~~ BitVec.twoPow 8 m.bit⟩

/-- The cell with a single mark. -/
def only (m : Mark) : Cell := empty.insert m

/-- The marks of a cell as they are drawn, and a dot if it is empty. -/
def text (c : Cell) : Text :=
  if c.bits = 0 then [Mark.floorByte] else (Mark.all.filter c.has).map Mark.byte

/-- The empty cell has no mark. -/
@[simp] theorem has_empty (m : Mark) : empty.has m = false := by cases m <;> rfl

/-- A cell has the inserted mark and its own. -/
@[simp] theorem has_insert (c : Cell) (a b : Mark) :
    (c.insert a).has b = (decide (a = b) || c.has b) := by
  have hb : b.bit < 8 := by cases b <;> decide
  simp only [has, insert, BitVec.getLsbD_or, BitVec.getLsbD_twoPow]
  by_cases h : a = b
  · simp [h, hb]
  · have : a.bit ≠ b.bit := fun e => h (Mark.bit_inj e)
    simp [h, this]

/-- A cell keeps every mark but the erased one. -/
@[simp] theorem has_erase (c : Cell) (a b : Mark) :
    (c.erase a).has b = (!decide (a = b) && c.has b) := by
  have hb : b.bit < 8 := by cases b <;> decide
  simp only [has, erase, BitVec.getLsbD_and, BitVec.getLsbD_not, BitVec.getLsbD_twoPow, hb]
  by_cases h : a = b
  · simp [h, hb]
  · have : a.bit ≠ b.bit := fun e => h (Mark.bit_inj e)
    simp [h, this]

end Cell

/-- The rows of cells. -/
abbrev Grid := List (List Cell)

namespace Grid

/-- The cell at a point; outside of the grid everything is wall. -/
def cellAt (g : Grid) (p : Point) : Cell :=
  if 0 ≤ p.x ∧ 0 ≤ p.y then
    match g[p.y.toNat]? with
    | some row => row[p.x.toNat]?.getD (Cell.only .wall)
    | none => Cell.only .wall
  else
    Cell.only .wall

/-- The grid with the cell at a point changed; a point outside of it changes nothing. -/
def modify (g : Grid) (p : Point) (f : Cell → Cell) : Grid :=
  if 0 ≤ p.x ∧ 0 ≤ p.y then
    List.modify g p.y.toNat fun row => row.modify p.x.toNat f
  else
    g

/-- The grid with a mark added at a point. -/
def place (g : Grid) (p : Point) (m : Mark) : Grid := g.modify p fun c => c.insert m

/-- The grid with a mark removed at a point. -/
def remove (g : Grid) (p : Point) (m : Mark) : Grid := g.modify p fun c => c.erase m

/-- Whether column `x` or row `y` is the outermost on a grid with `columns` columns and `rows` rows.
-/
def isBorder (columns rows x y : Nat) : Bool :=
  x == 0 || y == 0 || x + 1 == columns || y + 1 == rows

/-- A room of floor cells in a ring of walls. -/
def room (width length : Nat) : Grid :=
  (List.range (length + 2)).map fun y =>
    (List.range (width + 2)).map fun x =>
      if isBorder (width + 2) (length + 2) x y then Cell.only .wall else Cell.empty

/-! ## Changed cells -/

/-- A change of a cell leaves the others alone. -/
theorem cellAt_modify_of_ne (g : Grid) {p q : Point} (f : Cell → Cell) (h : p ≠ q) :
    (g.modify p f).cellAt q = g.cellAt q := by
  unfold modify
  split
  · rename_i hp
    unfold cellAt
    split
    · rename_i hq
      rw [List.getElem?_modify]
      by_cases hy : p.y.toNat = q.y.toNat
      · have hx : p.x.toNat ≠ q.x.toNat := by
          intro hx
          apply h
          have e1 : p.x = q.x := by omega
          have e2 : p.y = q.y := by omega
          cases p
          cases q
          simp_all
        cases hr : g[q.y.toNat]? with
        | none => simp
        | some row => simp [hy, hx]
      · simp [hy]
    · rfl
  · rfl

/-- A change of a free cell shows at its place: free cells lie inside of the grid. -/
theorem cellAt_modify_self (g : Grid) {p : Point} (f : Cell → Cell)
    (h : (g.cellAt p).has .wall = false) : (g.modify p f).cellAt p = f (g.cellAt p) := by
  unfold cellAt at h ⊢
  unfold modify
  by_cases hp : 0 ≤ p.x ∧ 0 ≤ p.y
  · rw [if_pos hp] at h ⊢
    rw [if_pos hp, if_pos hp, List.getElem?_modify]
    cases hr : g[p.y.toNat]? with
    | none => simp [hr, Cell.only] at h
    | some row =>
      rw [hr] at h
      cases hc : row[p.x.toNat]? with
      | none => simp [hc, Cell.only] at h
      | some c => simp [hc]
  · rw [if_neg hp] at h
    simp [Cell.only] at h

end Grid

end RobotMaze

import RobotMaze.Proofs.Maze.Attempt
import Mathlib.Data.List.Basic

/-!
# Actions stay on the grid

`Maze.perform` reads everything outside of the grid as wall and changes nothing there.
`Maze.perform?` is the same action on a grid that has no other cells than its own.  In a well-formed
maze the two do not differ.

* `Grid.update?` — a change of a cell that has to exist;
* `Maze.WellFormed.perform?_eq` — no action needs a cell outside of the grid;
* `Maze.WellFormed.after?_eq` — neither do any attempts at actions.
-/

namespace RobotMaze

/-- The grid with the cell at a point changed, if there is such a cell. -/
def Grid.update? (g : Grid) (p : Point) (f : Cell → Cell) : Option Grid :=
  if 0 ≤ p.x ∧ 0 ≤ p.y then do
    let row ← g[p.y.toNat]?
    let cell ← row[p.x.toNat]?
    return g.set p.y.toNat (row.set p.x.toNat (f cell))
  else
    none

/-- What is not a wall is a cell of the grid. -/
theorem Grid.update?_of_free {g : Grid} {p : Point} (h : (g.cellAt p).has .wall = false)
    (f : Cell → Cell) : g.update? p f = some (g.modify p f) := by
  have hwall : (Cell.only .wall).has .wall ≠ false := by decide
  unfold cellAt at h
  unfold update? modify
  by_cases hp : 0 ≤ p.x ∧ 0 ≤ p.y
  · rw [if_pos hp] at h ⊢
    rw [if_pos hp]
    cases hrow : g[p.y.toNat]? with
    | none =>
      rw [hrow] at h
      exact absurd h hwall
    | some row =>
      simp only [hrow] at h
      cases hcell : row[p.x.toNat]? with
      | none =>
        rw [hcell] at h
        exact absurd h hwall
      | some cell => simp [hrow, hcell, List.modify_eq_set_getElem?]
  · rw [if_neg hp] at h
    exact absurd h hwall

namespace Maze

/-- The maze after an action, if the action needs no other cells than those of the grid. -/
def perform? (m : Maze) : Action → Option (Except Rejection Maze)
  | .moveForward =>
    if m.frontIsClear then do
      let left ← m.grid.update? m.robot.location fun c => c.erase .robot
      let entered ← left.update? m.robot.front fun c => c.insert .robot
      return .ok { m with grid := entered, robot := { m.robot with location := m.robot.front } }
    else
      return .error .frontBlocked
  | a => some (m.perform a)

/-- In a well-formed maze no action needs a cell outside of the grid. -/
theorem WellFormed.perform?_eq {m : Maze} (h : m.WellFormed) (a : Action) :
    m.perform? a = some (m.perform a) := by
  cases a with
  | moveForward =>
    show (if m.frontIsClear then _ else _ : Option _) = some m.moveForward
    unfold moveForward
    by_cases hclear : m.frontIsClear = true
    · have hleft := Grid.update?_of_free h.robot_free fun c => c.erase .robot
      have hfront : ((m.grid.modify m.robot.location fun c => c.erase .robot).cellAt
          m.robot.front).has .wall = false := by
        have hfree : (m.grid.cellAt m.robot.front).has .wall = false := by
          simpa [frontIsClear, isFree, cellAt] using hclear
        rw [Grid.cellAt_modify h.robot_free]
        split <;> simp [hfree]
      have hentered := Grid.update?_of_free hfront fun c => c.insert .robot
      rw [if_pos hclear, if_pos hclear, hleft, Option.bind_eq_bind, Option.bind_some, hentered]
      rfl
    · rw [if_neg hclear, if_neg hclear]
      rfl
  | _ => rfl

/-- The maze after an attempt at an action, if it needs no other cells than those of the grid. -/
def attempt? (m : Maze) (a : Action) : Option Maze := do
  match ← m.perform? a with
  | .ok next => return next
  | .error _ => return m

theorem WellFormed.attempt?_eq {m : Maze} (h : m.WellFormed) (a : Action) :
    m.attempt? a = some (m.attempt a) := by
  rw [Maze.attempt?, h.perform?_eq, Maze.attempt]
  cases m.perform a <;> rfl

/-- The maze after attempts at actions, if none of them needs other cells than those of the grid. -/
def after? (m : Maze) (actions : List Action) : Option Maze := actions.foldlM attempt? m

/-- **In a well-formed maze no attempts need a cell outside of the grid.** -/
theorem WellFormed.after?_eq {m : Maze} (h : m.WellFormed) (actions : List Action) :
    m.after? actions = some (m.after actions) := by
  induction actions generalizing m with
  | nil => rfl
  | cons a rest ih =>
    rw [Maze.after?, List.foldlM_cons, h.attempt?_eq]
    exact ih (h.attempt a).1

end Maze

end RobotMaze

import RobotMaze.Proofs.Maze.History
import RobotMaze.Proofs.Maze.Motion
import Mathlib.Data.Nat.Find

/-!
# Straight on

How far the robot can go without a turn is told by the ground alone: up to the first wall before it,
and there is one, since a ring of walls surrounds every maze.

* `Maze.ClearFor` — the number of free cells before the robot;
* `Maze.WellFormed.existsUnique_clearFor` — there is exactly one such number;
* `Maze.ClearFor.advances` — where moves straight on lead.
-/

namespace RobotMaze.Maze

variable {m : Maze} {i k : Nat}

/-- The cell a number of steps before the robot. -/
def cellAhead (m : Maze) (i : Nat) : Point := ahead m.robot.location m.robot.facing.offset i

/-- Exactly `k` cells before the robot are free up to the first wall. -/
def ClearFor (m : Maze) (k : Nat) : Prop :=
  (∀ i, 1 ≤ i → i ≤ k → m.isFree (m.cellAhead i) = true) ∧ m.isFree (m.cellAhead (k + 1)) = false

/-- The maze after moves forward. -/
def advanced (m : Maze) (i : Nat) : Maze := m.after (List.replicate i .moveForward)

theorem ahead_zero (p d : Point) : ahead p d 0 = p := by
  rw [Point.ext_iff]
  constructor <;> simp [ahead]

theorem ahead_succ (p d : Point) (n : Nat) : ahead p d (n + 1) = ahead p d n + d := by
  rw [Point.ext_iff]
  constructor <;> simp [ahead, Int.add_mul, Int.add_assoc]

/-- Far enough ahead the robot would be outside. -/
theorem WellFormed.exists_not_free (h : m.WellFormed) :
    ∃ i, m.isFree (m.cellAhead (i + 1)) = false := by
  refine ⟨m.width + m.length, Bool.eq_false_iff.2 fun hfree => ?_⟩
  have hhere := h.robot_inside
  have hthere := h.inside hfree
  unfold cellAhead ahead Point.Inside at *
  cases hfacing : m.robot.facing <;> simp only [hfacing, Heading.offset] at hthere <;> omega

/-- There is one wall that the robot comes to first. -/
theorem WellFormed.existsUnique_clearFor (h : m.WellFormed) : ∃! k, m.ClearFor k := by
  have hwall := h.exists_not_free
  refine ⟨Nat.find hwall, ⟨fun i hlow hup => ?_, Nat.find_spec hwall⟩, fun k hk => ?_⟩
  · have hfree := Nat.find_min hwall (m := i - 1) (by omega)
    rw [Nat.sub_add_cancel hlow, Bool.not_eq_false] at hfree
    exact hfree
  · refine Nat.le_antisymm (Nat.not_lt.1 fun hlt => ?_) (Nat.find_min' hwall hk.2)
    have hfree := hk.1 (Nat.find hwall + 1) (by omega) hlt
    rw [Nat.find_spec hwall] at hfree
    cases hfree

/-! ## Moves straight on -/

theorem advanced_succ (m : Maze) (i : Nat) :
    m.advanced (i + 1) = (m.advanced i).attempt .moveForward := by
  rw [advanced, List.replicate_succ', after_concat, advanced]

theorem WellFormed.isFree_advanced (h : m.WellFormed) (i : Nat) (p : Point) :
    (m.advanced i).isFree p = m.isFree p :=
  (h.after (List.replicate i .moveForward)).2.isFree p

/-- What a move straight on changes, and what it does not. -/
structure Advances (m : Maze) (i : Nat) (n : Maze) : Prop where
  location : n.robot.location = m.cellAhead i
  facing : n.robot.facing = m.robot.facing
  flags : m.SameFlags n

/-- The cell before a robot that has advanced. -/
theorem Advances.front {n : Maze} (h : m.Advances i n) : n.robot.front = m.cellAhead (i + 1) := by
  rw [Robot.front, h.location, h.facing, cellAhead, cellAhead, ahead_succ]

/-- A robot with free cells before it advances, one cell for each move. -/
theorem ClearFor.advances (hk : m.ClearFor k) (h : m.WellFormed) (hi : i ≤ k) :
    m.Advances i (m.advanced i) := by
  induction i with
  | zero => exact ⟨(ahead_zero _ _).symm, rfl, rfl, rfl, rfl⟩
  | succ i ih =>
    have hbefore := ih (by omega)
    have hclear : (m.advanced i).frontIsClear = true := by
      rw [frontIsClear, hbefore.front, h.isFree_advanced]
      exact hk.1 (i + 1) (by omega) hi
    rw [advanced_succ, attempt_moveForward, if_pos hclear]
    exact ⟨hbefore.front, hbefore.facing, hbefore.flags⟩

/-- Whether the front of a robot that has advanced is clear. -/
theorem ClearFor.frontIsClear_advanced (hk : m.ClearFor k) (h : m.WellFormed) (hi : i ≤ k) :
    (m.advanced i).frontIsClear = decide (i < k) := by
  rw [frontIsClear, (hk.advances h hi).front, h.isFree_advanced]
  by_cases hlt : i < k
  · rw [hk.1 (i + 1) (by omega) hlt, decide_eq_true hlt]
  · obtain rfl : i = k := by omega
    rw [hk.2, decide_eq_false hlt]

/-- Every move up to the wall is accepted. -/
theorem ClearFor.perform_advanced (hk : m.ClearFor k) (h : m.WellFormed) (hi : i < k) :
    (m.advanced i).perform .moveForward = .ok (m.advanced (i + 1)) := by
  have hclear := hk.frontIsClear_advanced h (Nat.le_of_lt hi)
  rw [decide_eq_true hi] at hclear
  rw [advanced_succ, attempt_moveForward, if_pos hclear]
  exact moveForward_eq_ok_iff.2 ⟨hclear, rfl⟩

end RobotMaze.Maze

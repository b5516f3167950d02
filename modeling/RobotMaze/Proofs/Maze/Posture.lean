import RobotMaze.Proofs.Maze.Attempt
import Mathlib.Data.Fintype.Prod
import Mathlib.Data.Finset.Card

/-!
# The states of a maze

On a given ground a maze is determined by what its robot can change: where it stands, which way it
faces, and what it carries and has opened.  So there are only finitely many states.

* `Maze.WellFormed.eq_of_posture` — mazes on the same ground with the same posture are equal;
* `Maze.card_postures` — the number of postures.
-/

namespace RobotMaze

/-! ## Cells and grids -/

/-- A cell is known by one mark and all the others. -/
theorem Cell.eq_of_erase {c d : Cell} {m : Mark} (herase : c.erase m = d.erase m)
    (hhas : c.has m = d.has m) : c = d := by
  obtain ⟨bits⟩ := c
  obtain ⟨bits'⟩ := d
  rw [mk.injEq]
  apply BitVec.eq_of_getLsbD_eq
  intro i hi
  by_cases him : m.bit = i
  · subst him
    exact hhas
  · have hbits := congrArg (fun c : Cell => c.bits.getLsbD i) herase
    simpa [erase, him, Ne.symm him, hi] using hbits

/-- Grids of the same size with the same cells are equal. -/
theorem Grid.HasSize.eq_of_cellAt {g g' : Grid} {columns rows : Nat} (h : g.HasSize columns rows)
    (h' : g'.HasSize columns rows) (hcells : ∀ p, g.cellAt p = g'.cellAt p) : g = g' := by
  refine List.ext_getElem (h.1.trans h'.1.symm) fun y hy hy' => ?_
  have hrow := h.2 _ (List.getElem_mem hy)
  have hrow' := h'.2 _ (List.getElem_mem hy')
  refine List.ext_getElem (hrow.trans hrow'.symm) fun x hx hx' => ?_
  have hcell := hcells ⟨x, y⟩
  simpa [cellAt, List.getElem?_eq_getElem hy, List.getElem?_eq_getElem hy',
    List.getElem?_eq_getElem hx, List.getElem?_eq_getElem hx'] using hcell

instance : Fintype Heading where
  elems := {.north, .west, .south, .east}
  complete h := by cases h <;> decide

namespace Maze

/-! ## Postures -/

/-- What the robot of a maze can change. -/
def posture (m : Maze) : Int × Int × Heading × Bool × Bool × Bool :=
  (m.robot.location.x, m.robot.location.y, m.robot.facing, m.hasKey, m.hasCorrectKey,
    m.hasOpenedDoor)

/-- Mazes on the same ground with the same posture are equal. -/
theorem WellFormed.eq_of_posture {m n : Maze} (hm : m.WellFormed) (hn : n.WellFormed)
    (hground : m.SameGround n) (hname : n.name = m.name) (h : n.posture = m.posture) : n = m := by
  simp only [posture, Prod.mk.injEq] at h
  obtain ⟨hx, hy, hfacing, hkey, hcorrect, hopened⟩ := h
  have hlocation : n.robot.location = m.robot.location := Point.ext_iff.2 ⟨hx, hy⟩
  have hgrid : n.grid = m.grid := by
    have hsize := hn.size
    rw [hground.width, hground.length] at hsize
    refine hsize.eq_of_cellAt hm.size fun p => ?_
    refine Cell.eq_of_erase (hground.cells p) ?_
    rw [Bool.eq_iff_iff]
    exact (hn.robot_iff p).trans (by rw [hlocation]; exact (hm.robot_iff p).symm)
  obtain ⟨hwidth, hlength, hkeys, hcorrectKey, hdoor, hexit, -⟩ := hground
  obtain ⟨name, width, length, grid, ⟨location, facing⟩, keys, correctKey, door, exit, hasKey,
    hasCorrectKey, hasOpenedDoor⟩ := m
  obtain ⟨name', width', length', grid', ⟨location', facing'⟩, keys', correctKey', door', exit',
    hasKey', hasCorrectKey', hasOpenedDoor'⟩ := n
  simp only at *
  subst hname hwidth hlength hgrid hlocation hfacing hkeys hcorrectKey hdoor hexit hkey hcorrect
    hopened
  rfl

/-- The numbers from one to `n`. -/
def coordinates (n : Nat) : Finset Int :=
  (Finset.range n).map ⟨fun i : Nat => (i : Int) + 1, fun i j h => by dsimp only at h; omega⟩

theorem mem_coordinates {n : Nat} {x : Int} : x ∈ coordinates n ↔ 1 ≤ x ∧ x ≤ n := by
  simp only [coordinates, Finset.mem_map, Finset.mem_range]
  constructor
  · rintro ⟨i, hi, rfl⟩
    show 1 ≤ (i : Int) + 1 ∧ (i : Int) + 1 ≤ n
    omega
  · rintro ⟨hlow, hup⟩
    refine ⟨(x - 1).toNat, by omega, ?_⟩
    show ((x - 1).toNat : Int) + 1 = x
    omega

/-- The postures on the cells inside of a ring of walls. -/
def postures (width length : Nat) : Finset (Int × Int × Heading × Bool × Bool × Bool) :=
  coordinates width ×ˢ coordinates length ×ˢ Finset.univ

theorem card_postures (width length : Nat) :
    (postures width length).card = width * length * 32 := by
  have hcard : ∀ n, (coordinates n).card = n := by
    intro n
    rw [coordinates, Finset.card_map, Finset.card_range]
  have huniv : (Finset.univ : Finset (Heading × Bool × Bool × Bool)).card = 32 := by decide
  rw [postures, Finset.card_product, Finset.card_product, hcard, hcard, huniv, Nat.mul_assoc]

theorem WellFormed.posture_mem {m : Maze} (h : m.WellFormed) :
    m.posture ∈ postures m.width m.length := by
  obtain ⟨hx, hxw, hy, hyl⟩ := h.robot_inside
  simp only [postures, Finset.mem_product, mem_coordinates, Finset.mem_univ, and_true]
  exact ⟨⟨hx, hxw⟩, hy, hyl⟩

theorem name_perform {m n : Maze} {a : Action} (h : m.perform a = .ok n) : n.name = m.name := by
  rcases perform_cases h with ⟨-, -, rfl⟩ | ⟨-, rfl⟩ | ⟨-, rfl⟩ | ⟨-, -, rfl⟩ | ⟨-, rfl⟩ | ⟨-, rfl⟩
  all_goals rfl

end Maze

end RobotMaze

import RobotMaze.Maze.Build
import Mathlib.Tactic.Common

/-!
# The cells of a grid

What erasing does to a cell, and what `Grid.cellAt` reads from a changed grid and from a room.

* `Grid.cellAt_modify` — a change of a free cell shows at that cell and at no other;
* `Grid.cellAt_room` — a room is floor inside and wall everywhere else.
-/

namespace RobotMaze

/-- A point lies inside of the ring of walls around `length` rows of `width` cells. -/
def Point.Inside (p : Point) (width length : Nat) : Prop :=
  1 ≤ p.x ∧ p.x ≤ width ∧ 1 ≤ p.y ∧ p.y ≤ length

instance (p : Point) (width length : Nat) : Decidable (p.Inside width length) :=
  inferInstanceAs (Decidable (_ ∧ _ ∧ _ ∧ _))

theorem Point.ext_iff {p q : Point} : p = q ↔ p.x = q.x ∧ p.y = q.y := by
  cases p
  cases q
  simp

namespace Cell

/-- Erasing a mark that is not there changes nothing. -/
theorem erase_of_not_has {c : Cell} {m : Mark} (h : c.has m = false) : c.erase m = c := by
  obtain ⟨bits⟩ := c
  rw [erase, mk.injEq]
  apply BitVec.eq_of_getLsbD_eq
  intro i hi
  by_cases him : m.bit = i
  · subst him
    have h' : bits.getLsbD m.bit = false := h
    simp [h']
  · simp [Ne.symm him, hi]

/-- Erasing a mark undoes its insertion. -/
@[simp] theorem erase_insert (c : Cell) (m : Mark) : (c.insert m).erase m = c.erase m := by
  rw [erase, erase, mk.injEq]
  apply BitVec.eq_of_getLsbD_eq
  intro i hi
  by_cases him : m.bit = i
  · simp [him, insert]
  · simp [him, insert]

/-- Erasing a mark twice is erasing it once. -/
@[simp] theorem erase_erase (c : Cell) (m : Mark) : (c.erase m).erase m = c.erase m :=
  erase_of_not_has (by simp)

end Cell

namespace Grid

/-! ## The size of a grid -/

/-- A grid has `rows` rows of `columns` cells each. -/
def HasSize (g : Grid) (columns rows : Nat) : Prop :=
  g.length = rows ∧ ∀ row ∈ g, row.length = columns

/-- A change of a cell keeps the size of the grid. -/
theorem HasSize.modify {g : Grid} {columns rows : Nat} (h : g.HasSize columns rows) (p : Point)
    (f : Cell → Cell) : (g.modify p f).HasSize columns rows := by
  unfold Grid.modify
  split
  · refine ⟨by rw [List.length_modify]; exact h.1, ?_⟩
    intro row hrow
    obtain ⟨i, hi, rfl⟩ := List.getElem_of_mem hrow
    rw [List.length_modify] at hi
    rw [List.getElem_modify]
    split
    · rw [List.length_modify]
      exact h.2 _ (List.getElem_mem hi)
    · exact h.2 _ (List.getElem_mem hi)
  · exact h

/-- Outside of its rows and columns a grid reads as wall. -/
theorem HasSize.cellAt_outside {g : Grid} {columns rows : Nat} (h : g.HasSize columns rows)
    {p : Point} (hp : ¬ (0 ≤ p.x ∧ p.x < columns ∧ 0 ≤ p.y ∧ p.y < rows)) :
    g.cellAt p = Cell.only .wall := by
  unfold cellAt
  split
  · rename_i h0
    cases hrow : g[p.y.toNat]? with
    | none => rfl
    | some row =>
      have hlen : row.length = columns := h.2 row (List.mem_of_getElem? hrow)
      have hy : p.y.toNat < g.length := (List.getElem?_eq_some_iff.1 hrow).1
      rw [h.1] at hy
      have hx : row.length ≤ p.x.toNat := by omega
      show row[p.x.toNat]?.getD (Cell.only .wall) = Cell.only .wall
      rw [List.getElem?_eq_none hx]
      rfl
  · rfl

/-! ## Marks -/

/-- A change of a free cell shows at that cell and at no other. -/
theorem cellAt_modify {g : Grid} {p : Point} (h : (g.cellAt p).has .wall = false) (f : Cell → Cell)
    (q : Point) : (g.modify p f).cellAt q = if q = p then f (g.cellAt q) else g.cellAt q := by
  by_cases hq : q = p
  · subst hq
    rw [if_pos rfl]
    exact cellAt_modify_self g f h
  · rw [if_neg hq]
    exact cellAt_modify_of_ne g f (fun e => hq e.symm)

/-- Placing a mark on a free cell adds the mark to what the cells have. -/
theorem has_cellAt_place {g : Grid} {p : Point} (h : (g.cellAt p).has .wall = false) (m n : Mark)
    (q : Point) :
    ((g.place p m).cellAt q).has n = (decide (m = n ∧ q = p) || (g.cellAt q).has n) := by
  rw [place, cellAt_modify h]
  by_cases hq : q = p
  · simp [hq]
  · simp [hq]

/-- Placing a mark other than a wall keeps a free cell free. -/
theorem free_place {g : Grid} {p q : Point} (hp : (g.cellAt p).has .wall = false) {m : Mark}
    (hm : m ≠ .wall) : ((g.place p m).cellAt q).has .wall = (g.cellAt q).has .wall := by
  rw [has_cellAt_place hp]
  simp [hm]

/-- Things put on free cells, one after the other, show at their cells. -/
theorem cellAt_foldl_place (things : List (Point × Mark)) {g : Grid}
    (h : ∀ thing ∈ things, (g.cellAt thing.1).has .wall = false ∧ thing.2 ≠ .wall) (q : Point) :
    (things.foldl (fun g thing => g.place thing.1 thing.2) g).cellAt q =
      things.foldl (fun c thing => if q = thing.1 then c.insert thing.2 else c) (g.cellAt q) := by
  induction things generalizing g with
  | nil => rfl
  | cons thing rest ih =>
    obtain ⟨hfree, hmark⟩ := h thing (by simp)
    rw [List.foldl_cons, List.foldl_cons, ih, place, cellAt_modify hfree]
    intro other hother
    rw [free_place hfree hmark]
    exact h other (by simp [hother])

/-! ## Rooms -/

/-- A room has a ring of walls around its floor. -/
theorem hasSize_room (width length : Nat) :
    (room width length).HasSize (width + 2) (length + 2) := by
  refine ⟨by simp [room], ?_⟩
  intro row hrow
  obtain ⟨y, -, rfl⟩ := List.mem_map.1 hrow
  simp

/-- A room is floor inside and wall everywhere else. -/
theorem cellAt_room (width length : Nat) (p : Point) :
    (room width length).cellAt p
      = if p.Inside width length then Cell.empty else Cell.only .wall := by
  by_cases h : 0 ≤ p.x ∧ p.x < (width + 2 : Nat) ∧ 0 ≤ p.y ∧ p.y < (length + 2 : Nat)
  · obtain ⟨hx0, hx, hy0, hy⟩ := h
    have hx' : p.x.toNat < width + 2 := by omega
    have hy' : p.y.toNat < length + 2 := by omega
    unfold cellAt room
    rw [if_pos ⟨hx0, hy0⟩, List.getElem?_map, List.getElem?_range hy']
    simp only [Option.map_some, List.getElem?_map, List.getElem?_range hx', Option.getD_some]
    by_cases hin : p.Inside width length
    · have hb : isBorder (width + 2) (length + 2) p.x.toNat p.y.toNat = false := by
        obtain ⟨h1, h2, h3, h4⟩ := hin
        simp only [isBorder, Bool.or_eq_false_iff, beq_eq_false_iff_ne]
        omega
      rw [if_pos hin, hb]
      rfl
    · have hb : isBorder (width + 2) (length + 2) p.x.toNat p.y.toNat = true := by
        unfold Point.Inside at hin
        simp only [isBorder, Bool.or_eq_true, beq_iff_eq]
        omega
      rw [if_neg hin, hb]
      rfl
  · have hin : ¬ p.Inside width length := by
      unfold Point.Inside
      omega
    rw [if_neg hin]
    exact (hasSize_room width length).cellAt_outside h

end Grid

end RobotMaze

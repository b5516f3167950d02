import RobotMaze.Proofs.Maze.Posture
import RobotMaze.Proofs.Maze.Valid

/-!
# Rooms as drawings

An open room whose things lie on different cells can be drawn.  Its drawing is a map, and reading
the map gives the room back.

* `Maze.drawRoom` — the drawing of a room;
* `Maze.WellFormed.ofRows_of_drawn` — a drawing with the grid of a new maze is read as that maze;
* `Maze.ofRows_drawRoom` — reading the drawing of a room gives the room.
-/

namespace RobotMaze.Maze

/-! ## Reading back -/

section ReadBack

variable {m : Maze} {rows : List Text} {facing : Int} {correctKey : Option Point}

/-- In a drawing with the grid of a maze, a mark is found where the maze has it. -/
theorem Drawn.places_eq (hdrawn : Drawn (m.width + 2) rows) (hgrid : gridOfRows rows = m.grid)
    {n : Mark} (hn : n ≠ .wall) {points : List Point} (hordered : points.Pairwise Point.RowMajor)
    (hpoints : ∀ p, (m.cellAt p).has n = true ↔ p ∈ points) :
    places (m.width + 2) rows n = points := by
  refine List.Pairwise.eq_of_mem_iff (pairwise_places _ rows n) hordered fun p => ?_
  rw [← hdrawn.mem_places_iff_has hn, ← hpoints, hgrid]
  rfl

/-- A drawing with the grid of a new maze is read as that maze. -/
theorem WellFormed.ofRows_of_drawn (h : m.WellFormed) (hdrawn : Drawn (m.width + 2) rows)
    (hgrid : gridOfRows rows = m.grid) (hkeys : m.keys.Pairwise Point.RowMajor)
    (hkey : chooseKey m.keys correctKey = .ok m.correctKey)
    (hfacing : Heading.ofCode? facing = some m.robot.facing) (hreach : m.reachIssues = [])
    (hflags : (m.hasKey, m.hasCorrectKey, m.hasOpenedDoor) = (false, false, false))
    (hname : m.name = []) : ofRows rows facing correctKey = .ok m := by
  have hrows : rows.length = m.length + 2 := by
    rw [← h.size.1, ← hgrid, gridOfRows, List.length_map]
  have hcolumns : (rows.headD []).length = m.width + 2 := hdrawn.length_headD (by omega)
  have hkeys' := hdrawn.places_eq hgrid (by decide) hkeys h.key_iff
  have facts : MapFacts (m.width + 2) rows facing correctKey m.robot.location m.door m.exit
      m.correctKey m.robot.facing := by
    refine ⟨hdrawn, ?_, ?_, ?_, hkeys' ▸ hkey, hfacing⟩
    · exact hdrawn.places_eq hgrid (by decide) (List.pairwise_singleton _ _)
        fun p => (h.robot_iff p).trans List.mem_singleton.symm
    · exact hdrawn.places_eq hgrid (by decide) (List.pairwise_singleton _ _)
        fun p => (h.door_iff p).trans List.mem_singleton.symm
    · exact hdrawn.places_eq hgrid (by decide) (List.pairwise_singleton _ _)
        fun p => (h.exit_iff p).trans List.mem_singleton.symm
  have hm : m = ofDrawing rows m.robot.location m.door m.exit m.correctKey m.robot.facing := by
    unfold ofDrawing
    rw [hcolumns, hkeys', hrows, hgrid]
    obtain ⟨name, width, length, grid, robot, keys, correctKey, door, exit, hasKey, hasCorrectKey,
      hasOpenedDoor⟩ := m
    simp only [Prod.mk.injEq] at hflags hname
    obtain ⟨rfl, rfl, rfl⟩ := hflags
    obtain rfl := hname
    rfl
  obtain ⟨hx, hx', hy, hy'⟩ := h.robot_inside
  rw [← hcolumns] at facts
  exact ofRows_eq_ok_iff.2 ⟨by omega, by omega, _, _, _, _, _, facts, hm, hreach⟩

end ReadBack

/-! ## Drawings of rooms -/

/-- The byte that is drawn at a point of a room. -/
def roomByte (width length : Nat) (key door exit robot p : Point) : UInt8 :=
  if p.Inside width length then
    if p = key then Mark.key.byte
    else if p = door then Mark.door.byte
    else if p = exit then Mark.exit.byte
    else if p = robot then Mark.robot.byte
    else Mark.floorByte
  else Mark.wall.byte

/-- The drawing of a room: a ring of walls, the things at their points, and floor elsewhere. -/
def drawRoom (width length : Nat) (key door exit robot : Point) : List Text :=
  (List.range (length + 2)).map fun y : Nat =>
    (List.range (width + 2)).map fun x : Nat => roomByte width length key door exit robot ⟨x, y⟩

section Room

variable {width length : Nat} {key door exit robot : Point}

theorem length_drawRoom : (drawRoom width length key door exit robot).length = length + 2 := by
  simp [drawRoom]

theorem even_drawRoom :
    ∀ row ∈ drawRoom width length key door exit robot, row.length = width + 2 := by
  intro row hrow
  obtain ⟨y, -, rfl⟩ := List.mem_map.1 hrow
  simp

theorem byteAt_drawRoom (p : Point) :
    byteAt (drawRoom width length key door exit robot) p =
      if 0 ≤ p.x ∧ p.x < (width + 2 : Nat) ∧ 0 ≤ p.y ∧ p.y < (length + 2 : Nat) then
        some (roomByte width length key door exit robot p)
      else none := by
  by_cases hp : 0 ≤ p.x ∧ 0 ≤ p.y
  · have hpoint : (⟨p.x.toNat, p.y.toNat⟩ : Point) = p := by
      rw [Point.ext_iff]
      exact ⟨Int.toNat_of_nonneg hp.1, Int.toNat_of_nonneg hp.2⟩
    unfold byteAt drawRoom
    rw [if_pos hp, List.getElem?_map]
    by_cases hy : p.y.toNat < length + 2
    · rw [List.getElem?_range hy, Option.map_some, Option.bind_some, List.getElem?_map]
      by_cases hx : p.x.toNat < width + 2
      · rw [List.getElem?_range hx, Option.map_some, hpoint, if_pos (by omega)]
      · rw [List.getElem?_eq_none (by rw [List.length_range]; omega), if_neg (by omega)]
        rfl
    · rw [List.getElem?_eq_none (by rw [List.length_range]; omega), if_neg (by omega)]
      rfl
  · rw [byteAt, if_neg hp, if_neg (by omega)]

/-- Each byte of the drawing draws the cell of the room. -/
theorem cellOfByte?_roomByte (hin : ∀ p ∈ [key, door, exit, robot], p.Inside width length)
    (hdistinct : [key, door, exit, robot].Nodup) (heading : Heading) (p : Point) :
    cellOfByte? (roomByte width length key door exit robot p) =
      some ((ofRoom width length key door exit robot heading).cellAt p) := by
  rw [cellAt_ofRoom hin]
  simp only [List.foldl_cons, List.foldl_nil]
  unfold roomByte
  by_cases hp : p.Inside width length
  · simp only [List.nodup_cons, List.mem_cons, List.not_mem_nil, or_false, not_or] at hdistinct
    obtain ⟨⟨hkd, hke, hkr⟩, ⟨hde, hdr⟩, her, -⟩ := hdistinct
    rw [if_pos hp, if_pos hp]
    -- a thing is the only one on its cell
    by_cases hkey : p = key
    · subst hkey
      simp only [if_true, hkd, hke, hkr, if_false, cellOfByte?_byte]
      rfl
    by_cases hdoor : p = door
    · subst hdoor
      simp only [if_true, hkey, hde, hdr, if_false, cellOfByte?_byte]
      rfl
    by_cases hexit : p = exit
    · subst hexit
      simp only [if_true, hkey, hdoor, her, if_false, cellOfByte?_byte]
      rfl
    by_cases hrobot : p = robot
    · subst hrobot
      simp only [if_true, hkey, hdoor, hexit, if_false, cellOfByte?_byte]
      rfl
    · simp only [hkey, hdoor, hexit, hrobot, if_false]
      rfl
  · have hne : ∀ q ∈ [key, door, exit, robot], p ≠ q := by
      rintro q hq rfl
      exact hp (hin p hq)
    simp only [List.mem_cons, List.not_mem_nil, or_false, forall_eq_or_imp, forall_eq] at hne
    obtain ⟨hkey, hdoor, hexit, hrobot⟩ := hne
    simp only [hp, hkey, hdoor, hexit, hrobot, if_false, cellOfByte?_byte]

/-- The drawing of a room is a closed rectangle of known bytes. -/
theorem drawn_drawRoom (hin : ∀ p ∈ [key, door, exit, robot], p.Inside width length)
    (hdistinct : [key, door, exit, robot].Nodup) :
    Drawn (width + 2) (drawRoom width length key door exit robot) := by
  have hbyte : ∀ p b, byteAt (drawRoom width length key door exit robot) p = some b →
      0 ≤ p.x ∧ 0 ≤ p.y ∧ b = roomByte width length key door exit robot p := by
    intro p b hb
    rw [byteAt_drawRoom, Option.ite_none_right_eq_some, Option.some.injEq] at hb
    exact ⟨hb.1.1, hb.1.2.2.1, hb.2.symm⟩
  refine ⟨even_drawRoom, ?_, ?_⟩
  · intro p b hb
    obtain ⟨-, -, rfl⟩ := hbyte p b hb
    rw [cellOfByte?_roomByte hin hdistinct .north]
    rfl
  · intro p b hb hborder
    obtain ⟨hx, hy, rfl⟩ := hbyte p b hb
    rw [length_drawRoom, onBorder_iff hx hy] at hborder
    have hout : ¬ p.Inside width length := by
      unfold Point.Inside
      omega
    rw [roomByte, if_neg hout]

/-- The grid of the drawing is the one of the room. -/
theorem gridOfRows_drawRoom (hin : ∀ p ∈ [key, door, exit, robot], p.Inside width length)
    (hdistinct : [key, door, exit, robot].Nodup) (heading : Heading) :
    gridOfRows (drawRoom width length key door exit robot) =
      (ofRoom width length key door exit robot heading).grid := by
  have hsize := hasSize_gridOfRows (@even_drawRoom width length key door exit robot)
  have hsize' : (ofRoom width length key door exit robot heading).grid.HasSize (width + 2)
      (length + 2) := (wellFormed_ofRoom hin).size
  rw [length_drawRoom] at hsize
  refine hsize.eq_of_cellAt hsize' fun p => ?_
  rw [cellAt_gridOfRows, byteAt_drawRoom]
  split
  · rw [Option.map_some, cellOfByte?_roomByte hin hdistinct heading]
    rfl
  · rename_i hout
    exact (hsize'.cellAt_outside hout).symm

end Room

/-- **Both ways to build a room agree.**  If the things of a room lie on different points, then the
drawing of the room is accepted, and the maze that is read is the room. -/
theorem ofRows_drawRoom {width length : Int} {key door exit robot : Point} {facing : Int}
    {m : Maze} (h : room width length key door exit robot facing = .ok m)
    (hdistinct : [key, door, exit, robot].Nodup) :
    ofRows (drawRoom width.toNat length.toNat key door exit robot) facing none = .ok m := by
  have hlinked := (Built.room h).linked
  obtain ⟨-, -, hin, heading, hfacing, rfl⟩ := room_eq_ok_iff.1 h
  have hwf : (ofRoom width.toNat length.toNat key door exit robot heading).WellFormed :=
    wellFormed_ofRoom hin
  refine hwf.ofRows_of_drawn (drawn_drawRoom hin hdistinct)
    (gridOfRows_drawRoom hin hdistinct heading) (List.pairwise_singleton _ key) rfl hfacing ?_ rfl
    rfl
  rw [reachIssues_eq_nil_iff]
  intro p hp
  exact hwf.findPath_isSome_iff.2 (hlinked p hp)

/-- A room of three by two, with its drawing. -/
theorem ofRows_drawRoom_three_two :
    drawRoom 3 2 ⟨1, 1⟩ ⟨3, 1⟩ ⟨3, 2⟩ ⟨2, 2⟩ = ["*****", "*K.D*", "*.RE*", "*****"].map utf8 ∧
      ∃ m, room 3 2 ⟨1, 1⟩ ⟨3, 1⟩ ⟨3, 2⟩ ⟨2, 2⟩ 1 = .ok m ∧
        ofRows (drawRoom 3 2 ⟨1, 1⟩ ⟨3, 1⟩ ⟨3, 2⟩ ⟨2, 2⟩) 1 none = .ok m := by
  have h : room 3 2 ⟨1, 1⟩ ⟨3, 1⟩ ⟨3, 2⟩ ⟨2, 2⟩ 1
      = .ok (ofRoom 3 2 ⟨1, 1⟩ ⟨3, 1⟩ ⟨3, 2⟩ ⟨2, 2⟩ .west) := rfl
  exact ⟨by decide, _, h, ofRows_drawRoom h (by decide)⟩

end RobotMaze.Maze

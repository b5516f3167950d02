import RobotMaze.Maze.Render
import RobotMaze.Proofs.Maze.Attempt
import RobotMaze.Proofs.Maze.Valid
import RobotMaze.Proofs.Text.Lines

/-!
# Drawings of mazes

A maze that was read from a map is drawn as that map at all times, but for an arrow where the robot
stands and a dot where it started.

* `Maze.mapPoints` — rows with their entries replaced, point by point;
* `Maze.playedOn_after` — every attempt on a map leaves its marks in place;
* `Maze.PlayedOn.render_eq`, `Maze.PlayedOn.splitOn_render` — the lines of a drawing;
* `Maze.PlayedOn.glyphsOf_render` — the glyphs that are found in a drawing.
-/

namespace RobotMaze

open Text

namespace Maze

/-! ## Point by point -/

section Points

variable {α β γ : Type} {rows : List Text} {columns : Nat}

/-- The rows with every entry replaced, point by point. -/
def mapPoints (f : Point → α → β) (rows : List (List α)) : List (List β) :=
  rows.mapIdx fun y row => row.mapIdx fun x a => f ⟨x, y⟩ a

theorem mapPoints_mapPoints (g : Point → β → γ) (f : Point → α → β) (rows : List (List α)) :
    mapPoints g (mapPoints f rows) = mapPoints (fun p a => g p (f p a)) rows := by
  unfold mapPoints
  rw [List.mapIdx_mapIdx]
  congr 1
  funext y row
  exact List.mapIdx_mapIdx

theorem byteAt_natCast (rows : List Text) (x y : Nat) :
    byteAt rows ⟨x, y⟩ = rows[y]?.bind fun row => row[x]? := by
  rw [byteAt, if_pos ⟨Int.natCast_nonneg x, Int.natCast_nonneg y⟩]
  rfl

theorem mapPoints_congr {f g : Point → UInt8 → β}
    (h : ∀ p b, byteAt rows p = some b → f p b = g p b) : mapPoints f rows = mapPoints g rows := by
  refine List.ext_getElem? fun y => ?_
  rw [mapPoints, mapPoints, List.getElem?_mapIdx, List.getElem?_mapIdx]
  cases hrow : rows[y]? with
  | none => rfl
  | some row =>
    refine congrArg some (List.ext_getElem? fun x => ?_)
    rw [List.getElem?_mapIdx, List.getElem?_mapIdx]
    cases hbyte : row[x]? with
    | none => rfl
    | some b =>
      refine congrArg some (h ⟨x, y⟩ b ?_)
      rw [byteAt_natCast, hrow, Option.bind_some, hbyte]

theorem mapPoints_id (rows : List (List α)) : mapPoints (fun _ a => a) rows = rows := by
  refine List.ext_getElem (List.length_mapIdx ..) fun y hy hy' => ?_
  simp only [mapPoints, List.getElem_mapIdx]
  refine List.ext_getElem (List.length_mapIdx ..) fun x hx hx' => ?_
  rw [List.getElem_mapIdx]

/-- A grid of the size of the map is mapped like the map, if its cells are. -/
theorem map_cells_eq {g : Grid} (hsize : g.HasSize columns rows.length)
    (heven : ∀ row ∈ rows, row.length = columns) {s : Cell → β} {f : Point → UInt8 → β}
    (h : ∀ p b, byteAt rows p = some b → s (g.cellAt p) = f p b) :
    g.map (fun row => row.map s) = mapPoints f rows := by
  refine List.ext_getElem (by simp [mapPoints, hsize.1]) fun y hy hy' => ?_
  simp only [mapPoints, List.getElem_mapIdx, List.getElem_map]
  rw [List.length_map] at hy
  rw [mapPoints, List.length_mapIdx] at hy'
  have hrow : g[y].length = columns := hsize.2 _ (List.getElem_mem hy)
  have hrow' : rows[y].length = columns := heven _ (List.getElem_mem hy')
  refine List.ext_getElem (by simp [hrow, hrow']) fun x hx hx' => ?_
  rw [List.length_map] at hx
  rw [List.length_mapIdx] at hx'
  rw [List.getElem_map, List.getElem_mapIdx, ← h ⟨x, y⟩ rows[y][x]]
  · simp [Grid.cellAt, List.getElem?_eq_getElem hy, List.getElem?_eq_getElem hx]
  · rw [byteAt_natCast, List.getElem?_eq_getElem hy', Option.bind_some,
      List.getElem?_eq_getElem hx']

/-- An entry of the mapped rows comes from a byte of the map. -/
theorem mem_flatten_mapPoints {f : Point → UInt8 → β} {t : β} :
    t ∈ (mapPoints f rows).flatten ↔ ∃ p b, byteAt rows p = some b ∧ f p b = t := by
  rw [List.mem_flatten]
  constructor
  · rintro ⟨line, hline, ht⟩
    obtain ⟨y, hy, rfl⟩ := List.mem_mapIdx.1 hline
    obtain ⟨x, hx, rfl⟩ := List.mem_mapIdx.1 ht
    refine ⟨⟨x, y⟩, rows[y][x], ?_, rfl⟩
    rw [byteAt_natCast, List.getElem?_eq_getElem hy, Option.bind_some,
      List.getElem?_eq_getElem hx]
  · rintro ⟨p, b, hb, rfl⟩
    obtain ⟨hx, hy, row, hrow, hbyte⟩ := byteAt_eq_some_iff.1 hb
    obtain ⟨hylt, rfl⟩ := List.getElem?_eq_some_iff.1 hrow
    obtain ⟨hxlt, rfl⟩ := List.getElem?_eq_some_iff.1 hbyte
    refine ⟨_, List.mem_mapIdx.2 ⟨p.y.toNat, hylt, rfl⟩, List.mem_mapIdx.2 ⟨p.x.toNat, hxlt, ?_⟩⟩
    rw [Int.toNat_of_nonneg hx, Int.toNat_of_nonneg hy]

end Points

/-! ## The lines of a drawing -/

/-- What is drawn for a byte of the map: an arrow where the robot is, and floor where it was. -/
def glyph (robot : Robot) (p : Point) (b : UInt8) : Text :=
  if p = robot.location then robot.facing.arrow
  else if b = Mark.robot.byte then [Mark.floorByte]
  else [b]

/-- The last line of a drawing. -/
def statusLine (m : Maze) : Text :=
  "robot " ++ m.robot.text ++ ", key: " ++ Text.ofBool m.hasKey ++ ", door opened: "
    ++ Text.ofBool m.hasOpenedDoor

theorem lineFeed_not_mem_statusLine (m : Maze) : lineFeed ∉ m.statusLine := by
  have hname : lineFeed ∉ utf8 m.robot.facing.name := by cases m.robot.facing <;> decide
  have hbool : ∀ b : Bool, lineFeed ∉ Text.ofBool b := by decide
  have hx := lineFeed_not_mem_ofInt m.robot.location.x
  have hy := lineFeed_not_mem_ofInt m.robot.location.y
  have hpoint : lineFeed ∉ m.robot.location.text := by
    simp only [Point.text, List.mem_append, not_or]
    exact ⟨⟨⟨⟨by decide, hx⟩, by decide⟩, hy⟩, by decide⟩
  have hrobot : lineFeed ∉ m.robot.text := by
    simp only [Robot.text, List.mem_append, not_or]
    exact ⟨⟨hpoint, by decide⟩, hname⟩
  simp only [statusLine, List.mem_append, not_or]
  exact ⟨⟨⟨⟨⟨by decide, hrobot⟩, by decide⟩, hbool _⟩, by decide⟩, hbool _⟩

theorem render_eq (m : Maze) :
    m.render = inLines ((m.grid.map fun row => join [space] (row.map (sign m.robot.facing)))
      ++ [m.statusLine]) := by
  rw [inLines_append, inLines_cons, inLines, List.flatMap_map]
  rfl

/-- What the robot has done on a map: the maze `n` still has the marks that the map draws. -/
structure PlayedOn (rows : List Text) (start : Point) (n : Maze) : Prop where
  map : ∃ columns facing correctKey, ValidMap columns rows facing correctKey ∧
    n.grid.HasSize columns rows.length
  has_iff : ∀ p b, byteAt rows p = some b → ∀ k : Mark, k ≠ .robot →
    ((n.cellAt p).has k = true ↔ b = k.byte)
  robot_iff : ∀ p, (n.cellAt p).has .robot = true ↔ p = n.robot.location
  robot_drawn : ∃ b, byteAt rows n.robot.location = some b ∧ b ≠ Mark.wall.byte
  start_iff : ∀ p, byteAt rows p = some Mark.robot.byte ↔ p = start

/-- Inside of the ring of walls something is drawn. -/
theorem Depicts.exists_byteAt {rows : List Text} {facing : Int} {correctKey : Option Point}
    {m : Maze} (h : Depicts rows facing correctKey m) {p : Point}
    (hp : p.Inside m.width m.length) : ∃ b, byteAt rows p = some b := by
  obtain ⟨hx, hxw, hy, hyl⟩ := hp
  have hlength := h.length
  have hylt : p.y.toNat < rows.length := by omega
  have hwidth := h.width _ (List.getElem_mem hylt)
  have hxlt : p.x.toNat < rows[p.y.toNat].length := by omega
  exact ⟨_, byteAt_eq_some_iff.2 ⟨by omega, by omega, _, List.getElem?_eq_getElem hylt,
    List.getElem?_eq_getElem hxlt⟩⟩

/-- The first row is as wide as the maze with its ring of walls. -/
theorem Depicts.length_headD {rows : List Text} {facing : Int} {correctKey : Option Point}
    {m : Maze} (h : Depicts rows facing correctKey m) : (rows.headD []).length = m.width + 2 := by
  cases rows with
  | nil => cases h.length
  | cons row rest => exact h.width row List.mem_cons_self

/-- Every attempt on a map leaves its marks in place. -/
theorem playedOn_after {rows : List Text} {facing : Int} {correctKey : Option Point} {m : Maze}
    (h : ofRows rows facing correctKey = .ok m) (actions : List Action) :
    PlayedOn rows m.robot.location (m.after actions) := by
  obtain ⟨hwf, hground⟩ := (Built.rows h).wellFormed.after actions
  have hvalid := validMap_of_ofRows h
  have hdepicts := depicts_of_ofRows h
  have hhas : ∀ p b, byteAt rows p = some b → ∀ k : Mark, k ≠ .robot →
      (((m.after actions).cellAt p).has k = true ↔ b = k.byte) := by
    intro p b hb k hk
    rw [hground.has hk]
    exact has_cellAt_of_ofRows h hb k
  refine ⟨⟨_, facing, correctKey, hvalid, ?_⟩, hhas, hwf.robot_iff, ?_, ?_⟩
  · have hsize := hwf.size
    rw [hground.width, hground.length, ← hdepicts.length, ← hdepicts.length_headD] at hsize
    exact hsize
  · have hinside := hwf.robot_inside
    rw [hground.width, hground.length] at hinside
    obtain ⟨b, hb⟩ := hdepicts.exists_byteAt hinside
    refine ⟨b, hb, fun hwall => ?_⟩
    rw [← hhas _ b hb .wall (by decide), hwf.robot_free] at hwall
    cases hwall
  · intro p
    constructor
    · intro hp
      exact hvalid.robot.unique hp hdepicts.robot
    · rintro rfl
      exact hdepicts.robot

/-- The bytes of an arrow separate nothing. -/
theorem not_mem_arrow (facing : Heading) :
    lineFeed ∉ utf8 facing.arrow ∧ space ∉ utf8 facing.arrow := by
  cases facing <;> decide

theorem length_arrow (facing : Heading) : (utf8 facing.arrow).length = 3 := by
  cases facing <;> decide

section Played

variable {rows : List Text} {start : Point} {n : Maze}

/-- The sign of a cell is what the map shows for it. -/
theorem PlayedOn.sign_cellAt (h : PlayedOn rows start n) {p : Point} {b : UInt8}
    (hb : byteAt rows p = some b) : sign n.robot.facing (n.cellAt p) = glyph n.robot p b := by
  obtain ⟨columns, facing, correctKey, hvalid, -⟩ := h.map
  have hhas := h.has_iff p b hb
  unfold sign glyph
  simp only [h.robot_iff, hhas .wall (by decide), hhas .door (by decide), hhas .exit (by decide),
    hhas .key (by decide)]
  split
  · rfl
  · rcases mem_symbols_iff.1 (hvalid.known p b hb) with rfl | ⟨k, rfl⟩
    · rfl
    · cases k <;> rfl

/-- A glyph is one piece of its line. -/
theorem PlayedOn.not_mem_glyph (h : PlayedOn rows start n) {p : Point} {b : UInt8}
    (hb : byteAt rows p = some b) :
    lineFeed ∉ glyph n.robot p b ∧ space ∉ glyph n.robot p b := by
  obtain ⟨columns, facing, correctKey, hvalid, -⟩ := h.map
  unfold glyph
  split
  · exact not_mem_arrow n.robot.facing
  · split
    · decide
    · rcases mem_symbols_iff.1 (hvalid.known p b hb) with rfl | ⟨k, rfl⟩
      · decide
      · cases k <;> decide

theorem PlayedOn.render_eq (h : PlayedOn rows start n) :
    n.render = inLines ((mapPoints (glyph n.robot) rows).map (join [space]) ++ [n.statusLine]) := by
  obtain ⟨columns, facing, correctKey, hvalid, hsize⟩ := h.map
  rw [Maze.render_eq, ← map_cells_eq hsize hvalid.even fun p b hb => h.sign_cellAt hb,
    List.map_map]
  rfl

/-- The lines of a drawing are the rows of the map as they are shown, and the line about the
robot. -/
theorem PlayedOn.splitOn_render (h : PlayedOn rows start n) :
    splitOn lineFeed n.render =
      (mapPoints (glyph n.robot) rows).map (join [space]) ++ [n.statusLine] ++ [[]] := by
  have hlines : ∀ line ∈ (mapPoints (glyph n.robot) rows).map (join [space]) ++ [n.statusLine],
      lineFeed ∉ line := by
    intro line hline hmem
    rcases List.mem_append.1 hline with hline | hline
    · obtain ⟨glyphs, hglyphs, rfl⟩ := List.mem_map.1 hline
      rcases mem_join hmem with hmem | ⟨g, hg, hmem⟩
      · cases List.mem_singleton.1 hmem
      · obtain ⟨p, b, hb, rfl⟩ := mem_flatten_mapPoints.1 (List.mem_flatten_of_mem hglyphs hg)
        exact (h.not_mem_glyph hb).1 hmem
    · rw [List.mem_singleton.1 hline] at hmem
      exact lineFeed_not_mem_statusLine n hmem
  have hsplit := splitOn_inLines hlines []
  rw [List.append_nil, ← h.render_eq] at hsplit
  exact hsplit

/-- The glyphs of a drawing, line by line. -/
def glyphsOf (text : Text) : List (List Text) :=
  (splitOn lineFeed text).dropLast.dropLast.map (splitOn space)

theorem PlayedOn.glyphsOf_render (h : PlayedOn rows start n) :
    glyphsOf n.render = mapPoints (glyph n.robot) rows := by
  obtain ⟨columns, facing, correctKey, hvalid, -⟩ := h.map
  rw [glyphsOf, h.splitOn_render, List.dropLast_concat, List.dropLast_concat, List.map_map]
  refine (List.map_congr_left fun glyphs hglyphs => ?_).trans (List.map_id _)
  refine splitOn_join ?_ fun g hg => ?_
  · obtain ⟨y, hy, rfl⟩ := List.mem_mapIdx.1 hglyphs
    rw [← List.length_pos_iff, List.length_mapIdx, hvalid.even _ (List.getElem_mem hy)]
    exact Nat.lt_of_lt_of_le (by decide) hvalid.wide
  · obtain ⟨p, b, hb, rfl⟩ := mem_flatten_mapPoints.1 (List.mem_flatten_of_mem hglyphs hg)
    exact (h.not_mem_glyph hb).2

end Played

end Maze

end RobotMaze

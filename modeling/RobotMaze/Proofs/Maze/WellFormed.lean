import RobotMaze.Proofs.Maze.Drawing

/-!
# Well-formed mazes

A maze stores the same facts twice: as marks on its grid and as points beside it.  `WellFormed` says
that the two agree and that the robot stands on the floor inside of the ring of walls.

* `Maze.room_eq_ok_iff` — which rooms are accepted, and the maze they are;
* `Maze.Built.wellFormed` — every room and every drawn map is well-formed.
-/

namespace RobotMaze.Maze

/-- The marks on the grid agree with the points of the maze, and the robot stands inside. -/
structure WellFormed (m : Maze) : Prop where
  size : m.grid.HasSize (m.width + 2) (m.length + 2)
  ring : ∀ p : Point, ¬ p.Inside m.width m.length → (m.cellAt p).has .wall = true
  robot_iff : ∀ p, (m.cellAt p).has .robot = true ↔ p = m.robot.location
  robot_inside : m.robot.location.Inside m.width m.length
  robot_free : (m.cellAt m.robot.location).has .wall = false
  facing : m.robot.facing ∈ Heading.all
  key_iff : ∀ p, (m.cellAt p).has .key = true ↔ p ∈ m.keys
  door_iff : ∀ p, (m.cellAt p).has .door = true ↔ p = m.door
  exit_iff : ∀ p, (m.cellAt p).has .exit = true ↔ p = m.exit
  correctKey_mem : m.correctKey ∈ m.keys
  hasKey_of_hasCorrectKey : m.hasCorrectKey = true → m.hasKey = true

/-- A free cell lies inside of the ring of walls. -/
theorem WellFormed.inside {m : Maze} (h : m.WellFormed) {p : Point} (hp : m.isFree p = true) :
    p.Inside m.width m.length := by
  by_contra hout
  rw [isFree, h.ring p hout] at hp
  cases hp

/-! ## Open rooms -/

/-- An open room with its things in place. -/
def ofRoom (width length : Nat) (key door exit robot : Point) (heading : Heading) : Maze where
  width := width
  length := length
  grid := ((((Grid.room width length).place key .key).place door .door).place exit .exit).place
    robot .robot
  robot := ⟨robot, heading⟩
  keys := [key]
  correctKey := key
  door := door
  exit := exit

theorem outOfRoom_eq_nil_iff {width length : Nat} {what : String} {p : Point} :
    outOfRoom width length what p = [] ↔ p.Inside width length := by
  unfold outOfRoom Point.Inside
  by_cases hx : p.x < 1 ∨ (width : Int) < p.x
  · simp only [hx, if_true, List.append_eq_nil_iff, List.cons_ne_nil, false_and, false_iff]
    omega
  · by_cases hy : p.y < 1 ∨ (length : Int) < p.y
    · simp only [hx, hy, if_true, if_false, List.append_eq_nil_iff, List.cons_ne_nil, and_false,
        false_iff]
      omega
    · simp only [hx, hy, if_false, List.append_nil, true_iff]
      omega

theorem roomIssues_eq_nil_iff {width length : Nat} {key door exit robot : Point} {facing : Int} :
    roomIssues width length key door exit robot facing = [] ↔
      (∀ p ∈ [key, door, exit, robot], p.Inside width length) ∧
        ∃ heading, Heading.ofCode? facing = some heading := by
  unfold roomIssues
  simp only [List.append_eq_nil_iff, outOfRoom_eq_nil_iff, headingIssues_eq_nil_iff]
  simp [and_assoc]

/-- A room is accepted exactly if it has space, its things lie inside of it, and the number of the
heading is one. -/
theorem room_eq_ok_iff {width length : Int} {key door exit robot : Point} {facing : Int}
    {m : Maze} :
    room width length key door exit robot facing = .ok m ↔
      1 ≤ width ∧ 1 ≤ length ∧ (∀ p ∈ [key, door, exit, robot], p.Inside width.toNat length.toNat) ∧
        ∃ heading, Heading.ofCode? facing = some heading ∧
          m = ofRoom width.toNat length.toNat key door exit robot heading := by
  unfold room
  by_cases hspace : width < 1 ∨ length < 1
  · rw [if_pos hspace]
    constructor
    · intro h
      cases h
    · rintro ⟨hw, hl, -⟩
      omega
  rw [if_neg hspace]
  have hissues :=
    @roomIssues_eq_nil_iff width.toNat length.toNat key door exit robot facing
  rw [Int.toNat_of_nonneg (by omega), Int.toNat_of_nonneg (by omega)] at hissues
  constructor
  · intro h
    split at h
    · rename_i heading hnil hh
      cases h
      exact ⟨by omega, by omega, (hissues.1 hnil).1, heading, hh, rfl⟩
    · cases h
  · rintro ⟨-, -, hin, heading, hh, rfl⟩
    rw [hissues.2 ⟨hin, heading, hh⟩, hh]
    rfl

/-- The cells of a room are made by the things that are put on them, one after the other. -/
theorem cellAt_ofRoom {width length : Nat} {key door exit robot : Point}
    (hin : ∀ p ∈ [key, door, exit, robot], p.Inside width length) (heading : Heading) (p : Point) :
    (ofRoom width length key door exit robot heading).cellAt p =
      [(key, Mark.key), (door, .door), (exit, .exit), (robot, .robot)].foldl
        (fun c thing => if p = thing.1 then c.insert thing.2 else c)
        (if p.Inside width length then Cell.empty else Cell.only .wall) := by
  rw [← Grid.cellAt_room]
  refine Grid.cellAt_foldl_place [(key, .key), (door, .door), (exit, .exit), (robot, .robot)] ?_ p
  intro thing hthing
  have hmem : thing.1 ∈ [key, door, exit, robot] := List.mem_map_of_mem (f := Prod.fst) hthing
  rw [Grid.cellAt_room, if_pos (hin _ hmem)]
  simp only [List.mem_cons, List.not_mem_nil, or_false] at hthing
  refine ⟨Cell.has_empty _, ?_⟩
  rcases hthing with rfl | rfl | rfl | rfl <;> simp

/-- A cell of a room has the marks that were placed on it, and a wall if it is outside. -/
theorem has_cellAt_ofRoom {width length : Nat} {key door exit robot : Point}
    (hin : ∀ p ∈ [key, door, exit, robot], p.Inside width length) (heading : Heading) (p : Point)
    (n : Mark) :
    ((ofRoom width length key door exit robot heading).cellAt p).has n = true ↔
      n = .robot ∧ p = robot ∨ n = .exit ∧ p = exit ∨ n = .door ∧ p = door ∨ n = .key ∧ p = key ∨
        n = .wall ∧ ¬ p.Inside width length := by
  have hput : ∀ (c : Cell) (q : Point) (a : Mark),
      (if p = q then c.insert a else c).has n = true ↔ n = a ∧ p = q ∨ c.has n = true := by
    intro c q a
    by_cases hp : p = q
    · simp [hp, eq_comm (a := a)]
    · simp [hp]
  have hground : (if p.Inside width length then Cell.empty else Cell.only .wall).has n = true ↔
      n = .wall ∧ ¬ p.Inside width length := by
    by_cases hp : p.Inside width length
    · simp [hp]
    · simp [hp, Cell.only, eq_comm]
  rw [cellAt_ofRoom hin]
  simp only [List.foldl_cons, List.foldl_nil, hput, hground]

/-- A room is well-formed. -/
theorem wellFormed_ofRoom {width length : Nat} {key door exit robot : Point} {heading : Heading}
    (hin : ∀ p ∈ [key, door, exit, robot], p.Inside width length) :
    (ofRoom width length key door exit robot heading).WellFormed := by
  have hhas := has_cellAt_ofRoom hin heading
  have hrobot : robot.Inside width length := hin robot (by simp)
  refine ⟨?_, ?_, ?_, hrobot, ?_, ?_, ?_, ?_, ?_, ?_, ?_⟩
  · exact ((((Grid.hasSize_room width length).modify key _).modify door _).modify exit _).modify
      robot _
  · intro p hp
    exact (hhas p .wall).2 (by simpa [ofRoom] using hp)
  · intro p
    rw [hhas]
    simp [ofRoom]
  · rw [← Bool.not_eq_true, hhas]
    simpa [ofRoom] using hrobot
  · show heading ∈ Heading.all
    cases heading <;> decide
  · intro p
    rw [hhas]
    simp [ofRoom]
  · intro p
    rw [hhas]
    simp [ofRoom]
  · intro p
    rw [hhas]
    simp [ofRoom]
  · simp [ofRoom]
  · intro h
    cases h

/-! ## Drawn maps -/

/-- The border of a map, in coordinates. -/
theorem onBorder_iff {columns rows : Nat} {p : Point} (hx : 0 ≤ p.x) (hy : 0 ≤ p.y) :
    onBorder columns rows p = true ↔
      p.x = 0 ∨ p.x + 1 = columns ∨ p.y = 0 ∨ p.y + 1 = rows := by
  unfold onBorder Grid.isBorder
  simp only [Bool.or_eq_true, beq_iff_eq]
  omega

/-- Off the border of a map means inside of the ring. -/
theorem onBorder_eq_false_iff {columns rows : Nat} {p : Point} (hx : 0 ≤ p.x) (hy : 0 ≤ p.y)
    (hxc : p.x < columns) (hyr : p.y < rows) (hc : 3 ≤ columns) (hr : 3 ≤ rows) :
    onBorder columns rows p = false ↔ p.Inside (columns - 2) (rows - 2) := by
  rw [← Bool.not_eq_true, onBorder_iff hx hy]
  unfold Point.Inside
  omega

/-- A drawn byte lies between the first and the last row and column. -/
theorem Drawn.bounds {columns : Nat} {rows : List Text} (h : Drawn columns rows) {p : Point}
    {b : UInt8} (hb : byteAt rows p = some b) :
    0 ≤ p.x ∧ p.x < columns ∧ 0 ≤ p.y ∧ p.y < rows.length := by
  obtain ⟨hx, hy, row, hrow, hcell⟩ := byteAt_eq_some_iff.1 hb
  have hlen := h.even row (List.mem_of_getElem? hrow)
  have h1 := (List.getElem?_eq_some_iff.1 hrow).1
  have h2 := (List.getElem?_eq_some_iff.1 hcell).1
  omega

/-- The grid of a map has its rows and columns. -/
theorem hasSize_gridOfRows {columns : Nat} {rows : List Text}
    (heven : ∀ row ∈ rows, row.length = columns) :
    (gridOfRows rows).HasSize columns rows.length := by
  refine ⟨by simp [gridOfRows], ?_⟩
  intro row hrow
  obtain ⟨text, htext, rfl⟩ := List.mem_map.1 hrow
  rw [List.length_map]
  exact heven text htext

/-- The cells of a drawn map have the marks whose bytes are drawn there. -/
theorem Drawn.has_iff {columns : Nat} {rows : List Text} (h : Drawn columns rows) {p : Point}
    {b : UInt8} (hb : byteAt rows p = some b) (n : Mark) :
    ((gridOfRows rows).cellAt p).has n = true ↔ b = n.byte := by
  obtain ⟨c, hc⟩ := Option.isSome_iff_exists.1 (h.known p b hb)
  rw [cellAt_gridOfRows, hb, Option.map_some, Option.getD_some, hc, Option.getD_some]
  exact has_of_cellOfByte? hc n

/-- On a drawn map the places of a mark other than a wall are the points where it is drawn. -/
theorem Drawn.mem_places {columns : Nat} {rows : List Text} (h : Drawn columns rows) {n : Mark}
    (hn : n ≠ .wall) {p : Point} :
    p ∈ places columns rows n ↔ byteAt rows p = some n.byte := by
  rw [mem_places_iff h.even, and_iff_left_iff_imp]
  intro hb
  by_contra hborder
  have hwall := h.closed p _ hb (by simpa using hborder)
  revert hn hwall
  cases n <;> decide

/-- The places of a mark are the cells that have it. -/
theorem Drawn.mem_places_iff_has {columns : Nat} {rows : List Text} (h : Drawn columns rows)
    {n : Mark} (hn : n ≠ .wall) (p : Point) :
    ((gridOfRows rows).cellAt p).has n = true ↔ p ∈ places columns rows n := by
  rw [h.mem_places hn]
  cases hb : byteAt rows p with
  | none =>
    rw [cellAt_gridOfRows, hb]
    simpa [Cell.only] using hn.symm
  | some b => rw [h.has_iff hb, Option.some.injEq]

/-- A drawn map is well-formed. -/
theorem wellFormed_ofDrawing {rows : List Text} {facing : Int} {correctKey : Option Point}
    {robot door exit key : Point} {heading : Heading} (hrows : 3 ≤ rows.length)
    (hcolumns : 3 ≤ (rows.headD []).length)
    (h : MapFacts (rows.headD []).length rows facing correctKey robot door exit key heading) :
    (ofDrawing rows robot door exit key heading).WellFormed := by
  obtain ⟨hdrawn, hrobot, hdoor, hexit, hkey, -⟩ := h
  have hmem : robot ∈ places (rows.headD []).length rows .robot := by
    rw [hrobot]
    exact List.mem_singleton_self robot
  obtain ⟨hbyte, hborder⟩ := (mem_places_iff hdrawn.even).1 hmem
  have hbounds := hdrawn.bounds hbyte
  have hwidth : (rows.headD []).length - 2 + 2 = (rows.headD []).length := by omega
  have hlength : rows.length - 2 + 2 = rows.length := by omega
  refine ⟨?_, ?_, ?_, ?_, ?_, ?_, ?_, ?_, ?_, ?_, ?_⟩
  · show (gridOfRows rows).HasSize ((rows.headD []).length - 2 + 2) (rows.length - 2 + 2)
    rw [hwidth, hlength]
    exact hasSize_gridOfRows hdrawn.even
  · intro p hp
    show ((gridOfRows rows).cellAt p).has .wall = true
    cases hb : byteAt rows p with
    | none =>
      rw [cellAt_gridOfRows, hb]
      rfl
    | some b =>
      obtain ⟨h1, h2, h3, h4⟩ := hdrawn.bounds hb
      refine (hdrawn.has_iff hb .wall).2 (hdrawn.closed p b hb ?_)
      rw [← Bool.not_eq_false, onBorder_eq_false_iff h1 h3 h2 h4 hcolumns hrows]
      exact hp
  · intro p
    show ((gridOfRows rows).cellAt p).has .robot = true ↔ p = robot
    rw [hdrawn.mem_places_iff_has (by decide), hrobot, List.mem_singleton]
  · exact (onBorder_eq_false_iff hbounds.1 hbounds.2.2.1 hbounds.2.1 hbounds.2.2.2 hcolumns
      hrows).1 hborder
  · show ((gridOfRows rows).cellAt robot).has .wall = false
    rw [← Bool.not_eq_true, hdrawn.has_iff hbyte]
    decide
  · show heading ∈ Heading.all
    cases heading <;> decide
  · exact hdrawn.mem_places_iff_has (by decide)
  · intro p
    show ((gridOfRows rows).cellAt p).has .door = true ↔ p = door
    rw [hdrawn.mem_places_iff_has (by decide), hdoor, List.mem_singleton]
  · intro p
    show ((gridOfRows rows).cellAt p).has .exit = true ↔ p = exit
    rw [hdrawn.mem_places_iff_has (by decide), hexit, List.mem_singleton]
  · exact (chooseKey_eq_ok_iff.1 hkey).1
  · intro h
    cases h

/-! ## Built mazes -/

/-- A maze as it is built, before the robot has done anything. -/
inductive Built : Maze → Prop where
  | room {m : Maze} {width length : Int} {key door exit robot : Point} {facing : Int}
      (h : Maze.room width length key door exit robot facing = .ok m) : Built m
  | rows {m : Maze} {rows : List Text} {facing : Int} {correctKey : Option Point}
      (h : Maze.ofRows rows facing correctKey = .ok m) : Built m

/-- Every maze is built well-formed. -/
theorem Built.wellFormed {m : Maze} (h : m.Built) : m.WellFormed := by
  cases h with
  | room h =>
    obtain ⟨-, -, hin, heading, -, rfl⟩ := room_eq_ok_iff.1 h
    exact wellFormed_ofRoom hin
  | rows h =>
    obtain ⟨hrows, hcolumns, robot, door, exit, key, heading, facts, rfl, -⟩ :=
      ofRows_eq_ok_iff.1 h
    exact wellFormed_ofDrawing hrows hcolumns facts

end RobotMaze.Maze

import RobotMaze.Proofs.Maze.Walk
import Mathlib.Data.List.Sort

/-!
# Valid maps

Which drawings are maps, and which maze each of them is, told from the bytes of the drawing alone.

* `Maze.ValidMap` — the drawings that are maps;
* `Maze.Depicts` — a drawing shows a maze;
* `Maze.pairwise_places` — the places of a mark are found row by row, from left to right;
* `Maze.ofRows_reads_valid_maps` — the maps are the drawings that are accepted, and the maze that is
  read is the one that is shown.
-/

namespace RobotMaze

/-- The order in which the points of a map are read: row by row, each row from left to right. -/
def Point.RowMajor (p q : Point) : Prop := p.y < q.y ∨ p.y = q.y ∧ p.x < q.x

instance : Std.Irrefl Point.RowMajor where
  irrefl p h := by
    unfold Point.RowMajor at h
    omega

instance : Std.Antisymm Point.RowMajor where
  antisymm p q h h' := by
    unfold Point.RowMajor at h h'
    omega

theorem Heading.ofCode?_eq_some_iff {n : Int} {h : Heading} :
    ofCode? n = some h ↔ h.code.toInt = n := by
  constructor
  · intro hn
    exact eq_of_beq (List.find?_some hn :)
  · rintro rfl
    exact ofCode?_code h

theorem Heading.exists_code_iff {n : Int} :
    (∃ h : Heading, h.code.toInt = n) ↔ 0 ≤ n ∧ n ≤ 3 := by
  constructor
  · rintro ⟨h, rfl⟩
    cases h <;> decide
  · rintro ⟨h0, h3⟩
    obtain rfl | rfl | rfl | rfl : n = 0 ∨ n = 1 ∨ n = 2 ∨ n = 3 := by omega
    · exact ⟨.north, by decide⟩
    · exact ⟨.west, by decide⟩
    · exact ⟨.south, by decide⟩
    · exact ⟨.east, by decide⟩

namespace Maze

variable {columns : Nat} {rows : List Text} {facing : Int} {correctKey : Option Point}

/-! ## Bytes -/

/-- The bytes that may be drawn are the dot of the floor and those of the marks. -/
theorem mem_symbols_iff {b : UInt8} :
    b ∈ utf8 "*.KDER" ↔ b = Mark.floorByte ∨ ∃ n : Mark, b = n.byte := by
  have hsymbols : utf8 "*.KDER" = [Mark.wall.byte, Mark.floorByte, Mark.key.byte, Mark.door.byte,
      Mark.exit.byte, Mark.robot.byte] := by decide
  rw [hsymbols]
  constructor
  · intro h
    simp only [List.mem_cons, List.not_mem_nil, or_false] at h
    rcases h with h | h | h | h | h | h
    · exact .inr ⟨_, h⟩
    · exact .inl h
    · exact .inr ⟨_, h⟩
    · exact .inr ⟨_, h⟩
    · exact .inr ⟨_, h⟩
    · exact .inr ⟨_, h⟩
  · rintro (rfl | ⟨n, rfl⟩)
    · decide
    · cases n <;> decide

/-- A byte draws a cell exactly if it may be drawn. -/
theorem isSome_cellOfByte?_iff {b : UInt8} :
    (cellOfByte? b).isSome = true ↔ b ∈ utf8 "*.KDER" := by
  rw [mem_symbols_iff]
  constructor
  · intro h
    unfold cellOfByte? at h
    split at h
    · rename_i hfloor
      exact .inl hfloor
    · rw [Option.isSome_map] at h
      obtain ⟨n, hn⟩ := Option.isSome_iff_exists.1 h
      exact .inr ⟨n, (eq_of_beq (List.find?_some hn :)).symm⟩
  · rintro (rfl | ⟨n, rfl⟩)
    · rfl
    · rw [cellOfByte?_byte]
      rfl

/-- Whether something other than a wall is drawn at a point. -/
def isOpen (rows : List Text) (p : Point) : Bool := (byteAt rows p).any (· != Mark.wall.byte)

/-- A key is the correct one: the one that is named, or any if none is named. -/
def IsCorrectKey (rows : List Text) (correctKey : Option Point) (p : Point) : Prop :=
  byteAt rows p = some Mark.key.byte ∧ ∀ k ∈ correctKey, p = k

/-! ## Places -/

theorem pairwise_zipIdx {α : Type} (l : List α) : l.zipIdx.Pairwise fun a b => a.2 < b.2 := by
  rw [← List.pairwise_map (f := Prod.snd) (R := (· < ·)), List.zipIdx_map_snd]
  exact List.pairwise_lt_range'

/-- The places of a mark are found row by row, each row from left to right. -/
theorem pairwise_places (columns : Nat) (rows : List Text) (n : Mark) :
    (places columns rows n).Pairwise Point.RowMajor := by
  unfold places
  refine List.pairwise_flatMap.2 ⟨?_, (pairwise_zipIdx rows).imp ?_⟩
  · rintro ⟨row, y⟩ -
    dsimp only
    split
    · exact .nil
    · refine List.pairwise_filterMap.2 ((pairwise_zipIdx row).imp ?_)
      rintro ⟨b, x⟩ ⟨b', x'⟩ hlt p hp q hq
      simp only [Option.ite_none_right_eq_some, Option.some.injEq] at hp hq
      obtain ⟨-, rfl⟩ := hp
      obtain ⟨-, rfl⟩ := hq
      exact .inr ⟨rfl, Int.ofNat_lt.2 hlt⟩
  · rintro ⟨row, y⟩ ⟨row', y'⟩ hlt p hp q hq
    simp only [List.mem_ite_nil_left, List.mem_filterMap, Option.ite_none_right_eq_some,
      Option.some.injEq] at hp hq
    obtain ⟨-, ⟨b, x⟩, -, -, rfl⟩ := hp
    obtain ⟨-, ⟨b', x'⟩, -, -, rfl⟩ := hq
    exact .inl (Int.ofNat_lt.2 hlt)

/-- The first row of a drawing tells its columns. -/
theorem Drawn.length_headD (h : Drawn columns rows) (hrows : 0 < rows.length) :
    (rows.headD []).length = columns := by
  cases rows with
  | nil => cases hrows
  | cons row rest => exact h.even row (by simp)

/-- A mark is found at one place exactly if it is drawn there and nowhere else. -/
theorem Drawn.places_eq_singleton_iff (h : Drawn columns rows) {n : Mark} (hn : n ≠ .wall)
    {p : Point} : places columns rows n = [p] ↔ ∀ q, byteAt rows q = some n.byte ↔ q = p := by
  constructor
  · intro hplaces q
    rw [← h.mem_places hn, hplaces, List.mem_singleton]
  · intro hq
    refine List.Pairwise.eq_of_mem_iff (pairwise_places columns rows n)
      (List.pairwise_singleton _ p) fun q => ?_
    rw [h.mem_places hn, hq, List.mem_singleton]

/-- A key is chosen exactly if it is the only correct one. -/
theorem Drawn.chooseKey_iff (h : Drawn columns rows) {key : Point} :
    chooseKey (places columns rows .key) correctKey = .ok key ↔
      ∀ q, IsCorrectKey rows correctKey q ↔ q = key := by
  have hmem : key ∈ places columns rows .key ↔ byteAt rows key = some Mark.key.byte :=
    h.mem_places (by decide)
  have hsingle := h.places_eq_singleton_iff (n := .key) (by decide) (p := key)
  unfold IsCorrectKey
  rw [chooseKey_eq_ok_iff, hmem]
  cases correctKey with
  | none =>
    rw [hsingle]
    constructor
    · rintro ⟨-, -, honly⟩ q
      simpa using honly rfl q
    · intro honly
      have hq : ∀ q, byteAt rows q = some Mark.key.byte ↔ q = key := fun q => by
        simpa using honly q
      exact ⟨(hq key).2 rfl, by simp, fun _ => hq⟩
  | some k =>
    constructor
    · rintro ⟨hkey, heq, -⟩ q
      obtain rfl := heq k rfl
      constructor
      · rintro ⟨-, hq⟩
        exact hq key rfl
      · rintro rfl
        exact ⟨hkey, heq⟩
    · intro honly
      obtain ⟨hkey, heq⟩ := (honly key).2 rfl
      exact ⟨hkey, heq, by simp⟩

/-- There is one correct key exactly if there is a key, a named one is a key, and one is named
unless there is only one. -/
theorem existsUnique_isCorrectKey_iff :
    (∃! p, IsCorrectKey rows correctKey p) ↔
      (∃ p, byteAt rows p = some Mark.key.byte) ∧
        (∀ k ∈ correctKey, byteAt rows k = some Mark.key.byte) ∧
          ∀ p q, byteAt rows p = some Mark.key.byte → byteAt rows q = some Mark.key.byte → p ≠ q →
            correctKey.isSome = true := by
  constructor
  · rintro ⟨p, ⟨hp, hnamed⟩, honly⟩
    refine ⟨⟨p, hp⟩, ?_, ?_⟩
    · intro k hk
      rw [← hnamed k hk]
      exact hp
    · intro q r hq hr hne
      cases correctKey with
      | none => exact absurd ((honly q ⟨hq, by simp⟩).trans (honly r ⟨hr, by simp⟩).symm) hne
      | some k => rfl
  · rintro ⟨⟨p, hp⟩, hnamed, hseveral⟩
    cases correctKey with
    | none =>
      refine ⟨p, ⟨hp, by simp⟩, fun q hq => ?_⟩
      by_contra hne
      cases hseveral q p hq.1 hp hne
    | some k => exact ⟨k, ⟨hnamed k rfl, by simp⟩, fun q hq => hq.2 k rfl⟩

/-! ## Maps and mazes -/

/-- A drawing is a map: a closed rectangle of known bytes with one robot, one door, one exit and
keys, of which one is the correct one, a number that is one of a heading, and ways from the robot
to the correct key, the door and the exit. -/
structure ValidMap (columns : Nat) (rows : List Text) (facing : Int) (correctKey : Option Point) :
    Prop where
  tall : 3 ≤ rows.length
  wide : 3 ≤ columns
  even : ∀ row ∈ rows, row.length = columns
  known : ∀ p b, byteAt rows p = some b → b ∈ utf8 "*.KDER"
  closed : ∀ p b, byteAt rows p = some b →
    p.x = 0 ∨ p.x + 1 = columns ∨ p.y = 0 ∨ p.y + 1 = rows.length → b = Mark.wall.byte
  robot : ∃! p, byteAt rows p = some Mark.robot.byte
  door : ∃! p, byteAt rows p = some Mark.door.byte
  exit : ∃! p, byteAt rows p = some Mark.exit.byte
  key : ∃ p, byteAt rows p = some Mark.key.byte
  named_key : ∀ k ∈ correctKey, byteAt rows k = some Mark.key.byte
  named_of_several : ∀ p q, byteAt rows p = some Mark.key.byte →
    byteAt rows q = some Mark.key.byte → p ≠ q → correctKey.isSome = true
  facing : 0 ≤ facing ∧ facing ≤ 3
  reach : ∀ start goal, byteAt rows start = some Mark.robot.byte →
    IsCorrectKey rows correctKey goal ∨ byteAt rows goal = some Mark.door.byte ∨
      byteAt rows goal = some Mark.exit.byte →
    ∃ points, Path.Walk (isOpen rows) start goal points

/-- A drawing shows a maze as it is before anything is done in it. -/
structure Depicts (rows : List Text) (facing : Int) (correctKey : Option Point) (m : Maze) :
    Prop where
  width : ∀ row ∈ rows, row.length = m.width + 2
  length : rows.length = m.length + 2
  size : m.grid.HasSize (m.width + 2) (m.length + 2)
  mark : ∀ p n, byteAt rows p = some (Mark.byte n) → m.cellAt p = Cell.only n
  floor : ∀ p, byteAt rows p = some Mark.floorByte → m.cellAt p = Cell.empty
  robot : byteAt rows m.robot.location = some Mark.robot.byte
  facing : m.robot.facing.code.toInt = facing
  door : byteAt rows m.door = some Mark.door.byte
  exit : byteAt rows m.exit = some Mark.exit.byte
  mem_keys : ∀ p, p ∈ m.keys ↔ byteAt rows p = some Mark.key.byte
  keys_ordered : m.keys.Pairwise Point.RowMajor
  correctKey : IsCorrectKey rows correctKey m.correctKey
  hasKey : m.hasKey = false
  hasCorrectKey : m.hasCorrectKey = false
  hasOpenedDoor : m.hasOpenedDoor = false
  name : m.name = []

section Facts

variable {robot door exit key : Point} {heading : Heading}

/-- The maze of a drawing is free where something other than a wall is drawn. -/
theorem Drawn.isFree_ofDrawing (h : Drawn columns rows) :
    (ofDrawing rows robot door exit key heading).isFree = isOpen rows := by
  funext p
  show (!((gridOfRows rows).cellAt p).has .wall) = isOpen rows p
  unfold isOpen
  cases hb : byteAt rows p with
  | none =>
    rw [cellAt_gridOfRows, hb]
    rfl
  | some b =>
    have hwall : ((gridOfRows rows).cellAt p).has .wall = (b == Mark.wall.byte) := by
      rw [Bool.eq_iff_iff, h.has_iff hb, beq_iff_eq]
    rw [hwall]
    rfl

/-- The robot can reach what it needs exactly if there are ways to it in the drawing. -/
theorem MapFacts.reachIssues_iff
    (facts : MapFacts (rows.headD []).length rows facing correctKey robot door exit key heading)
    (hrows : 3 ≤ rows.length) (hcolumns : 3 ≤ (rows.headD []).length) :
    (ofDrawing rows robot door exit key heading).reachIssues = [] ↔
      ∀ p ∈ [key, door, exit], ∃ points, Path.Walk (isOpen rows) robot p points := by
  have hwf := wellFormed_ofDrawing hrows hcolumns facts
  rw [reachIssues_eq_nil_iff, ← facts.drawn.isFree_ofDrawing]
  exact forall₂_congr fun p _ => hwf.findPath_isSome_iff_walk

/-- What a map without issues has, told from its bytes. -/
theorem mapFacts_iff :
    MapFacts columns rows facing correctKey robot door exit key heading ↔
      Drawn columns rows ∧ (∀ q, byteAt rows q = some Mark.robot.byte ↔ q = robot) ∧
        (∀ q, byteAt rows q = some Mark.door.byte ↔ q = door) ∧
          (∀ q, byteAt rows q = some Mark.exit.byte ↔ q = exit) ∧
            (∀ q, IsCorrectKey rows correctKey q ↔ q = key) ∧ heading.code.toInt = facing := by
  constructor
  · rintro ⟨hdrawn, hrobot, hdoor, hexit, hkey, hheading⟩
    exact ⟨hdrawn, (hdrawn.places_eq_singleton_iff (by decide)).1 hrobot,
      (hdrawn.places_eq_singleton_iff (by decide)).1 hdoor,
      (hdrawn.places_eq_singleton_iff (by decide)).1 hexit, hdrawn.chooseKey_iff.1 hkey,
      Heading.ofCode?_eq_some_iff.1 hheading⟩
  · rintro ⟨hdrawn, hrobot, hdoor, hexit, hkey, hheading⟩
    exact ⟨hdrawn, (hdrawn.places_eq_singleton_iff (by decide)).2 hrobot,
      (hdrawn.places_eq_singleton_iff (by decide)).2 hdoor,
      (hdrawn.places_eq_singleton_iff (by decide)).2 hexit, hdrawn.chooseKey_iff.2 hkey,
      Heading.ofCode?_eq_some_iff.2 hheading⟩

/-- A drawing that is accepted is a map. -/
theorem MapFacts.validMap
    (facts : MapFacts columns rows facing correctKey robot door exit key heading)
    (hrows : 3 ≤ rows.length) (hcolumns : 3 ≤ columns)
    (hreach : ∀ p ∈ [key, door, exit], ∃ points, Path.Walk (isOpen rows) robot p points) :
    ValidMap columns rows facing correctKey := by
  obtain ⟨hdrawn, hrobot, hdoor, hexit, hkey, hheading⟩ := mapFacts_iff.1 facts
  obtain ⟨hsome, hnamed, hseveral⟩ := existsUnique_isCorrectKey_iff.1
    ⟨key, (hkey key).2 rfl, fun q hq => (hkey q).1 hq⟩
  refine ⟨hrows, hcolumns, hdrawn.even, ?_, ?_,
    ⟨robot, (hrobot robot).2 rfl, fun q => (hrobot q).1⟩,
    ⟨door, (hdoor door).2 rfl, fun q => (hdoor q).1⟩,
    ⟨exit, (hexit exit).2 rfl, fun q => (hexit q).1⟩, hsome, hnamed, hseveral,
    Heading.exists_code_iff.1 ⟨heading, hheading⟩, ?_⟩
  · intro p b hb
    exact isSome_cellOfByte?_iff.1 (hdrawn.known p b hb)
  · intro p b hb hborder
    obtain ⟨hx, -, hy, -⟩ := hdrawn.bounds hb
    exact hdrawn.closed p b hb ((onBorder_iff hx hy).2 hborder)
  · intro start goal hstart hgoal
    rw [hkey, hdoor, hexit] at hgoal
    rw [(hrobot start).1 hstart]
    exact hreach goal (by simpa using hgoal)

/-- A drawing without issues shows the maze that is read from it. -/
theorem MapFacts.depicts
    (facts : MapFacts (rows.headD []).length rows facing correctKey robot door exit key heading)
    (hrows : 3 ≤ rows.length) (hcolumns : 3 ≤ (rows.headD []).length) :
    Depicts rows facing correctKey (ofDrawing rows robot door exit key heading) := by
  have hwf := wellFormed_ofDrawing hrows hcolumns facts
  obtain ⟨hdrawn, hrobot, hdoor, hexit, hkey, hheading⟩ := mapFacts_iff.1 facts
  have hwidth : (ofDrawing rows robot door exit key heading).width + 2 = (rows.headD []).length :=
    Nat.sub_add_cancel (by omega)
  have hlength : (ofDrawing rows robot door exit key heading).length + 2 = rows.length :=
    Nat.sub_add_cancel (by omega)
  refine ⟨?_, hlength.symm, hwf.size, ?_, ?_, (hrobot robot).2 rfl, hheading, (hdoor door).2 rfl,
    (hexit exit).2 rfl, ?_, pairwise_places _ rows .key, (hkey key).2 rfl, rfl, rfl, rfl, rfl⟩
  · intro row hrow
    rw [hwidth]
    exact hdrawn.even row hrow
  · intro p n hb
    show (gridOfRows rows).cellAt p = Cell.only n
    rw [cellAt_gridOfRows, hb, Option.map_some, cellOfByte?_byte]
    rfl
  · intro p hb
    show (gridOfRows rows).cellAt p = Cell.empty
    rw [cellAt_gridOfRows, hb]
    rfl
  · intro p
    exact hdrawn.mem_places (by decide)

end Facts

/-! ## Reading maps -/

theorem ValidMap.drawn (h : ValidMap columns rows facing correctKey) : Drawn columns rows where
  even := h.even
  known p b hb := isSome_cellOfByte?_iff.2 (h.known p b hb)
  closed p b hb hborder := by
    obtain ⟨hx, hy, -⟩ := byteAt_eq_some_iff.1 hb
    exact h.closed p b hb ((onBorder_iff hx hy).1 hborder)

/-- A map has one correct key. -/
theorem ValidMap.existsUnique_isCorrectKey (h : ValidMap columns rows facing correctKey) :
    ∃! p, IsCorrectKey rows correctKey p :=
  existsUnique_isCorrectKey_iff.2 ⟨h.key, h.named_key, h.named_of_several⟩

/-- A map is accepted. -/
theorem ValidMap.exists_ofRows (h : ValidMap columns rows facing correctKey) :
    ∃ m, ofRows rows facing correctKey = .ok m := by
  obtain rfl := h.drawn.length_headD (Nat.zero_lt_of_lt h.tall)
  obtain ⟨robot, hrobot, hrobot'⟩ := h.robot
  obtain ⟨door, hdoor, hdoor'⟩ := h.door
  obtain ⟨exit, hexit, hexit'⟩ := h.exit
  obtain ⟨key, hkey, hkey'⟩ := h.existsUnique_isCorrectKey
  obtain ⟨heading, hheading⟩ := Heading.exists_code_iff.2 h.facing
  have facts : MapFacts (rows.headD []).length rows facing correctKey robot door exit key heading :=
    mapFacts_iff.2 ⟨h.drawn, fun q => ⟨hrobot' q, fun hq => hq ▸ hrobot⟩,
      fun q => ⟨hdoor' q, fun hq => hq ▸ hdoor⟩, fun q => ⟨hexit' q, fun hq => hq ▸ hexit⟩,
      fun q => ⟨hkey' q, fun hq => hq ▸ hkey⟩, hheading⟩
  refine ⟨_, ofRows_eq_ok_iff.2 ⟨h.tall, h.wide, robot, door, exit, key, heading, facts, rfl,
    (facts.reachIssues_iff h.tall h.wide).2 ?_⟩⟩
  intro p hp
  refine h.reach robot p hrobot ?_
  simp only [List.mem_cons, List.not_mem_nil, or_false] at hp
  rcases hp with rfl | rfl | rfl
  · exact .inl hkey
  · exact .inr (.inl hdoor)
  · exact .inr (.inr hexit)

/-- What is accepted is a map. -/
theorem validMap_of_ofRows {m : Maze} (h : ofRows rows facing correctKey = .ok m) :
    ValidMap (rows.headD []).length rows facing correctKey := by
  obtain ⟨hrows, hcolumns, robot, door, exit, key, heading, facts, rfl, hreach⟩ :=
    ofRows_eq_ok_iff.1 h
  exact facts.validMap hrows hcolumns ((facts.reachIssues_iff hrows hcolumns).1 hreach)

/-- What is accepted shows the maze that is read. -/
theorem depicts_of_ofRows {m : Maze} (h : ofRows rows facing correctKey = .ok m) :
    Depicts rows facing correctKey m := by
  obtain ⟨hrows, hcolumns, robot, door, exit, key, heading, facts, rfl, -⟩ := ofRows_eq_ok_iff.1 h
  exact facts.depicts hrows hcolumns

/-- The cells of the maze that is read have the marks that are drawn there. -/
theorem has_cellAt_of_ofRows {m : Maze} (h : ofRows rows facing correctKey = .ok m) {p : Point}
    {b : UInt8} (hb : byteAt rows p = some b) (n : Mark) :
    (m.cellAt p).has n = true ↔ b = n.byte := by
  obtain ⟨-, -, robot, door, exit, key, heading, facts, rfl, -⟩ := ofRows_eq_ok_iff.1 h
  exact facts.drawn.has_iff hb n

/-- The maze that is read is free where something other than a wall is drawn. -/
theorem isFree_of_ofRows {m : Maze} (h : ofRows rows facing correctKey = .ok m) :
    m.isFree = isOpen rows := by
  obtain ⟨-, -, robot, door, exit, key, heading, facts, rfl, -⟩ := ofRows_eq_ok_iff.1 h
  exact facts.drawn.isFree_ofDrawing

/-- **Exactly the maps are read.**  Rows of any bytes and lengths, with any number for the heading
and any named key, are accepted exactly if they are a map; the maze that is read is then the one
that they show. -/
theorem ofRows_reads_valid_maps (rows : List Text) (facing : Int) (correctKey : Option Point) :
    ((∃ m, ofRows rows facing correctKey = .ok m) ↔
        ∃ columns, ValidMap columns rows facing correctKey) ∧
      ∀ m, ofRows rows facing correctKey = .ok m → Depicts rows facing correctKey m := by
  refine ⟨⟨?_, ?_⟩, fun m h => depicts_of_ofRows h⟩
  · rintro ⟨m, h⟩
    exact ⟨_, validMap_of_ofRows h⟩
  · rintro ⟨columns, h⟩
    exact h.exists_ofRows

/-- A map with two keys, one of which is behind a wall. -/
def keyBehindWall : List Text := ["*******", "*R.*K.*", "*.*D..*", "*K..E.*", "*******"]

/-- The map with two keys is one if a key is named, and the maze has the keys in order; it is none
if no key is named. -/
theorem keyBehindWall_reads_valid_maps :
    (∃ columns, ValidMap columns keyBehindWall 2 (some ⟨4, 1⟩)) ∧
      (¬ ∃ columns, ValidMap columns keyBehindWall 2 none) ∧
        ∃ m, ofRows keyBehindWall 2 (some ⟨4, 1⟩) = .ok m ∧ m.keys = [⟨4, 1⟩, ⟨1, 3⟩] ∧
          Depicts keyBehindWall 2 (some ⟨4, 1⟩) m := by
  have h : ofRows keyBehindWall 2 (some ⟨4, 1⟩)
      = .ok (ofDrawing keyBehindWall ⟨1, 1⟩ ⟨3, 2⟩ ⟨4, 3⟩ ⟨4, 1⟩ .south) := rfl
  have hnone : ofRows keyBehindWall 2 none = .error [.ambiguousKey 2] := rfl
  refine ⟨(ofRows_reads_valid_maps keyBehindWall 2 (some ⟨4, 1⟩)).1.1 ⟨_, h⟩, ?_, _, h, rfl,
    (ofRows_reads_valid_maps keyBehindWall 2 (some ⟨4, 1⟩)).2 _ h⟩
  intro hvalid
  obtain ⟨m, hm⟩ := (ofRows_reads_valid_maps keyBehindWall 2 none).1.2 hvalid
  rw [hnone] at hm
  cases hm

end Maze

end RobotMaze

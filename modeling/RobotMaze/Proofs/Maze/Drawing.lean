import RobotMaze.Proofs.Maze.Grid

/-!
# Drawn maps

A map that has no issues is a rectangle of known bytes with a border of walls.  `Maze.byteAt` is the
byte drawn at a point; the grid of a map, and the places of its marks, are told from these bytes.

* `Maze.mem_places_iff` — the places of a mark are the points off the border where it is drawn;
* `Maze.cellAt_gridOfRows` — each cell of the grid is the one that its byte draws;
* `Maze.mapIssues_eq_nil_iff` — what the absence of issues says about a map;
* `Maze.ofRows_eq_ok_iff` — which maps are accepted, and the maze they draw.
-/

namespace RobotMaze.Maze

/-! ## Bytes of a map -/

/-- The byte that is drawn at a point. -/
def byteAt (rows : List Text) (p : Point) : Option UInt8 :=
  if 0 ≤ p.x ∧ 0 ≤ p.y then rows[p.y.toNat]?.bind fun row => row[p.x.toNat]? else none

/-- Whether a point lies on the border of a grid. -/
def onBorder (columns rows : Nat) (p : Point) : Bool :=
  Grid.isBorder columns rows p.x.toNat p.y.toNat

theorem byteAt_eq_some_iff {rows : List Text} {p : Point} {b : UInt8} :
    byteAt rows p = some b ↔
      0 ≤ p.x ∧ 0 ≤ p.y ∧ ∃ row, rows[p.y.toNat]? = some row ∧ row[p.x.toNat]? = some b := by
  unfold byteAt
  by_cases h : 0 ≤ p.x ∧ 0 ≤ p.y
  · rw [if_pos h, Option.bind_eq_some_iff]
    simp [h]
  · rw [if_neg h]
    constructor
    · intro h'
      cases h'
    · rintro ⟨hx, hy, -⟩
      exact absurd ⟨hx, hy⟩ h

/-- Each cell of the grid is the one that its byte draws, and wall where nothing is drawn. -/
theorem cellAt_gridOfRows (rows : List Text) (p : Point) :
    (gridOfRows rows).cellAt p
      = ((byteAt rows p).map fun b => (cellOfByte? b).getD Cell.empty).getD (Cell.only .wall) := by
  unfold Grid.cellAt byteAt gridOfRows
  by_cases h : 0 ≤ p.x ∧ 0 ≤ p.y
  · rw [if_pos h, if_pos h, List.getElem?_map]
    cases rows[p.y.toNat]? with
    | none => rfl
    | some row => simp
  · rw [if_neg h, if_neg h]
    rfl

/-- The places of a mark are the points off the border where it is drawn. -/
theorem mem_places_iff {columns : Nat} {rows : List Text}
    (hrows : ∀ row ∈ rows, row.length = columns) {m : Mark} {p : Point} :
    p ∈ places columns rows m ↔
      byteAt rows p = some m.byte ∧ onBorder columns rows.length p = false := by
  unfold places
  rw [List.mem_flatMap]
  constructor
  · rintro ⟨⟨row, y⟩, hrow, hp⟩
    rw [List.mem_zipIdx_iff_getElem?] at hrow
    have hlen : row.length = columns := hrows row (List.mem_of_getElem? hrow)
    simp only [hlen, ne_eq, not_true_eq_false, if_false, List.mem_filterMap] at hp
    obtain ⟨⟨b, x⟩, hb, hx⟩ := hp
    rw [List.mem_zipIdx_iff_getElem?] at hb
    simp only [Option.ite_none_right_eq_some, Option.some.injEq, Bool.not_eq_true'] at hx
    obtain ⟨⟨rfl, hborder⟩, rfl⟩ := hx
    refine ⟨byteAt_eq_some_iff.2 ⟨by simp, by simp, row, by simpa using hrow, by simpa using hb⟩,
      ?_⟩
    simpa [onBorder] using hborder
  · rintro ⟨hb, hborder⟩
    obtain ⟨hx0, hy0, row, hrow, hb⟩ := byteAt_eq_some_iff.1 hb
    refine ⟨(row, p.y.toNat), List.mem_zipIdx_iff_getElem?.2 hrow, ?_⟩
    have hlen : row.length = columns := hrows row (List.mem_of_getElem? hrow)
    simp only [hlen, ne_eq, not_true_eq_false, if_false, List.mem_filterMap]
    refine ⟨(m.byte, p.x.toNat), List.mem_zipIdx_iff_getElem?.2 hb, ?_⟩
    unfold onBorder at hborder
    rw [if_pos ⟨rfl, by rw [hborder]; rfl⟩, Option.some.injEq, Point.ext_iff]
    constructor <;> simp <;> omega

/-! ## Cells of bytes -/

/-- The byte of a mark draws a cell with this mark only. -/
theorem cellOfByte?_byte (m : Mark) : cellOfByte? m.byte = some (Cell.only m) := by
  cases m <;> decide

/-- A cell drawn by a byte has a mark exactly if the byte is the one of the mark. -/
theorem has_of_cellOfByte? {b : UInt8} {c : Cell} (h : cellOfByte? b = some c) (m : Mark) :
    c.has m = true ↔ b = m.byte := by
  constructor
  · intro hm
    unfold cellOfByte? at h
    split at h
    · rw [Option.some.injEq] at h
      rw [← h, Cell.has_empty] at hm
      cases hm
    · obtain ⟨n, hn, rfl⟩ := Option.map_eq_some_iff.1 h
      have hb : n.byte = b := by simpa using List.find?_some hn
      rw [Cell.only, Cell.has_insert, Cell.has_empty, Bool.or_false, decide_eq_true_eq] at hm
      rw [← hm, hb]
  · intro hb
    rw [hb, cellOfByte?_byte, Option.some.injEq] at h
    rw [← h, Cell.only, Cell.has_insert]
    simp

/-! ## Maps without issues -/

/-- The rows of a map form a rectangle of known bytes with a border of walls. -/
structure Drawn (columns : Nat) (rows : List Text) : Prop where
  even : ∀ row ∈ rows, row.length = columns
  known : ∀ p b, byteAt rows p = some b → (cellOfByte? b).isSome = true
  closed : ∀ p b, byteAt rows p = some b → onBorder columns rows.length p = true →
    b = Mark.wall.byte

theorem byteIssues_eq_nil_iff {columns rows x y : Nat} {b : UInt8} :
    byteIssues columns rows x y b = [] ↔
      (Grid.isBorder columns rows x y = true → b = Mark.wall.byte) ∧
        (cellOfByte? b).isSome = true := by
  unfold byteIssues
  by_cases hb : b = Mark.wall.byte
  · subst hb
    simp [cellOfByte?_byte]
  · by_cases hborder : Grid.isBorder columns rows x y = true
    · simp [hborder, hb]
    · cases hc : cellOfByte? b <;> simp [hborder]

theorem rowIssues_eq_nil_iff {columns rows y : Nat} {row : Text} :
    rowIssues columns rows y row = [] ↔
      row.length = columns ∧
        ∀ x b, row[x]? = some b → byteIssues columns rows x y b = [] := by
  unfold rowIssues
  by_cases hlen : row.length = columns
  · simp only [hlen, ne_eq, not_true_eq_false, if_false, List.flatMap_eq_nil_iff, true_and]
    constructor
    · intro h x b hb
      exact h (b, x) (List.mem_zipIdx_iff_getElem?.2 hb)
    · rintro h ⟨b, x⟩ hb
      exact h x b (List.mem_zipIdx_iff_getElem?.1 hb)
  · simp [hlen]

/-- The rows have no issues exactly if they form a closed rectangle of known bytes. -/
theorem rowsIssues_eq_nil_iff {columns : Nat} {rows : List Text} :
    (rows.zipIdx.flatMap fun (row, y) => rowIssues columns rows.length y row) = [] ↔
      Drawn columns rows := by
  rw [List.flatMap_eq_nil_iff]
  constructor
  · intro h
    have hrow : ∀ (y : Nat) (row : Text), rows[y]? = some row →
        rowIssues columns rows.length y row = [] := fun y row hy =>
      h (row, y) (List.mem_zipIdx_iff_getElem?.2 hy)
    have hbyte : ∀ p b, byteAt rows p = some b →
        byteIssues columns rows.length p.x.toNat p.y.toNat b = [] := by
      intro p b hb
      obtain ⟨-, -, row, hy, hx⟩ := byteAt_eq_some_iff.1 hb
      exact (rowIssues_eq_nil_iff.1 (hrow _ _ hy)).2 _ _ hx
    refine ⟨?_, ?_, ?_⟩
    · intro row hmem
      obtain ⟨y, hy⟩ := List.mem_iff_getElem?.1 hmem
      exact (rowIssues_eq_nil_iff.1 (hrow y row hy)).1
    · intro p b hb
      exact (byteIssues_eq_nil_iff.1 (hbyte p b hb)).2
    · intro p b hb
      exact (byteIssues_eq_nil_iff.1 (hbyte p b hb)).1
  · rintro h ⟨row, y⟩ hmem
    rw [List.mem_zipIdx_iff_getElem?] at hmem
    refine rowIssues_eq_nil_iff.2 ⟨h.even row (List.mem_of_getElem? hmem), ?_⟩
    intro x b hx
    have hb : byteAt rows ⟨x, y⟩ = some b :=
      byteAt_eq_some_iff.2 ⟨by simp, by simp, row, by simpa using hmem, by simpa using hx⟩
    refine byteIssues_eq_nil_iff.2 ⟨?_, h.known _ b hb⟩
    intro hborder
    exact h.closed _ b hb (by simpa [onBorder] using hborder)

theorem countIssues_eq_nil_iff {ps : List Point} {issue : Nat → Issue} :
    countIssues ps issue = [] ↔ ∃ p, ps = [p] := by
  unfold countIssues
  rw [← List.length_eq_one_iff]
  by_cases h : ps.length = 1 <;> simp [h]

theorem keyIssues_eq_nil_iff {keys : List Point} {correctKey : Option Point} :
    keyIssues keys correctKey = [] ↔ ∃ key, chooseKey keys correctKey = .ok key := by
  unfold keyIssues
  cases chooseKey keys correctKey <;> simp

theorem headingIssues_eq_nil_iff {facing : Int} :
    headingIssues facing = [] ↔ ∃ heading, Heading.ofCode? facing = some heading := by
  unfold headingIssues
  cases Heading.ofCode? facing <;> simp

/-- What a map without issues has. -/
structure MapFacts (columns : Nat) (rows : List Text) (facing : Int) (correctKey : Option Point)
    (robot door exit key : Point) (heading : Heading) : Prop where
  drawn : Drawn columns rows
  robot : places columns rows .robot = [robot]
  door : places columns rows .door = [door]
  exit : places columns rows .exit = [exit]
  key : chooseKey (places columns rows .key) correctKey = .ok key
  heading : Heading.ofCode? facing = some heading

/-- A map has no issues exactly if it is well drawn and each thing it needs can be told. -/
theorem mapIssues_eq_nil_iff {columns : Nat} {rows : List Text} {facing : Int}
    {correctKey : Option Point} :
    mapIssues columns rows facing correctKey = [] ↔
      ∃ robot door exit key heading,
        MapFacts columns rows facing correctKey robot door exit key heading := by
  unfold mapIssues
  simp only [List.append_eq_nil_iff, rowsIssues_eq_nil_iff, countIssues_eq_nil_iff,
    keyIssues_eq_nil_iff, headingIssues_eq_nil_iff]
  constructor
  · rintro ⟨⟨⟨⟨⟨hd, robot, hr⟩, door, hdo⟩, exit, he⟩, key, hk⟩, heading, hh⟩
    exact ⟨robot, door, exit, key, heading, hd, hr, hdo, he, hk, hh⟩
  · rintro ⟨robot, door, exit, key, heading, h⟩
    exact ⟨⟨⟨⟨⟨h.drawn, robot, h.robot⟩, door, h.door⟩, exit, h.exit⟩, key, h.key⟩, heading,
      h.heading⟩

/-- The key that is chosen is the named one, or the only one if none is named. -/
theorem chooseKey_eq_ok_iff {keys : List Point} {correctKey : Option Point} {key : Point} :
    chooseKey keys correctKey = .ok key ↔
      key ∈ keys ∧ (∀ k ∈ correctKey, key = k) ∧ (correctKey = none → keys = [key]) := by
  cases keys with
  | nil => simp [chooseKey]
  | cons p rest =>
    cases correctKey with
    | none =>
      cases rest with
      | nil => simp [chooseKey, eq_comm]
      | cons q rest => simp [chooseKey]
    | some k =>
      have hchoose : chooseKey (p :: rest) (some k) =
          if (p :: rest).contains k then .ok k else .error (.notAKey k) := rfl
      rw [hchoose]
      by_cases hk : k ∈ p :: rest
      · rw [if_pos (List.contains_iff_mem.2 hk), Except.ok.injEq]
        constructor
        · rintro rfl
          exact ⟨hk, by simp, by simp⟩
        · rintro ⟨-, hkey, -⟩
          exact (hkey k rfl).symm
      · rw [if_neg (fun hc => hk (List.contains_iff_mem.1 hc))]
        constructor
        · intro h
          cases h
        · rintro ⟨hmem, hkey, -⟩
          exact absurd (hkey k rfl ▸ hmem) hk

/-- The maze that a map draws, before it is known what the robot can reach. -/
def ofDrawing (rows : List Text) (robot door exit key : Point) (heading : Heading) : Maze where
  width := (rows.headD []).length - 2
  length := rows.length - 2
  grid := gridOfRows rows
  robot := ⟨robot, heading⟩
  keys := places (rows.headD []).length rows .key
  correctKey := key
  door := door
  exit := exit

/-- A map is accepted exactly if it is large enough, has no issues, and the robot can reach what it
needs in the maze that the map draws. -/
theorem ofRows_eq_ok_iff {rows : List Text} {facing : Int} {correctKey : Option Point} {m : Maze} :
    ofRows rows facing correctKey = .ok m ↔
      3 ≤ rows.length ∧ 3 ≤ (rows.headD []).length ∧
        ∃ robot door exit key heading,
          MapFacts (rows.headD []).length rows facing correctKey robot door exit key heading ∧
            m = ofDrawing rows robot door exit key heading ∧ m.reachIssues = [] := by
  unfold ofRows
  by_cases hrows : rows.length < 3
  · simp [hrows, Nat.not_le.2 hrows]
  by_cases hcolumns : (rows.headD []).length < 3
  · simp only [hrows, hcolumns, if_false, if_true]
    constructor
    · intro h
      cases h
    · rintro ⟨-, h, -⟩
      omega
  simp only [hrows, hcolumns, if_false]
  constructor
  · intro h
    refine ⟨by omega, by omega, ?_⟩
    split at h
    · rename_i robot _ door _ exit _ key heading hissues hr hd he hk hh
      obtain ⟨robot', door', exit', key', heading', facts⟩ := mapIssues_eq_nil_iff.1 hissues
      split at h
      · rename_i hreach
        cases h
        refine ⟨robot, door, exit, key, heading, ?_, rfl, hreach⟩
        have hr' := hr.symm.trans facts.robot
        have hd' := hd.symm.trans facts.door
        have he' := he.symm.trans facts.exit
        simp only [List.cons.injEq] at hr' hd' he'
        refine ⟨facts.drawn, ?_, ?_, ?_, hk, hh⟩
        · rw [hr, hr'.2]
        · rw [hd, hd'.2]
        · rw [he, he'.2]
      · cases h
    · cases h
  · rintro ⟨-, -, robot, door, exit, key, heading, facts, rfl, hreach⟩
    rw [mapIssues_eq_nil_iff.2 ⟨_, _, _, _, _, facts⟩, facts.robot, facts.door, facts.exit,
      facts.key, facts.heading]
    unfold ofDrawing at hreach ⊢
    dsimp only
    rw [hreach]

end RobotMaze.Maze

import RobotMaze.Proofs.Maze.Search
import RobotMaze.Proofs.Maze.WellFormed

/-!
# What the robot can reach

`Maze.findPath` on well-formed mazes, and which cells of a built maze are linked by walks.

* `Maze.WellFormed.findPath_isSome_iff` — a path is found exactly if some trail leads to the goal;
* `Maze.shortest_of_findPath` — the path that is found is a shortest trail;
* `Maze.Built.linked` — in a built maze the robot can walk to the correct key, the door and the
  exit.
-/

namespace RobotMaze

@[simp] theorem Point.add_x (p q : Point) : (p + q).x = p.x + q.x := rfl

@[simp] theorem Point.add_y (p q : Point) : (p + q).y = p.y + q.y := rfl

/-- A step can be taken back. -/
theorem Path.Neighbour.symm {p q : Point} (h : Path.Neighbour p q) : Path.Neighbour q p := by
  obtain ⟨d, hd, rfl⟩ := h
  have hback : (⟨-d.x, -d.y⟩ : Point) ∈ Path.steps := by
    revert d
    decide
  refine ⟨_, hback, ?_⟩
  rw [Point.ext_iff]
  constructor <;> simp only [Point.add_x, Point.add_y] <;> omega

namespace Maze

/-! ## Paths in well-formed mazes -/

/-- The cells inside of the ring of walls. -/
def insideCells (width length : Nat) : List Point :=
  (List.range width).flatMap fun x : Nat =>
    (List.range length).map fun y : Nat => ⟨(x : Int) + 1, (y : Int) + 1⟩

theorem mem_insideCells {width length : Nat} {p : Point} (h : p.Inside width length) :
    p ∈ insideCells width length := by
  obtain ⟨hx1, hx2, hy1, hy2⟩ := h
  refine List.mem_flatMap.2 ⟨(p.x - 1).toNat, List.mem_range.2 (by omega), ?_⟩
  refine List.mem_map.2 ⟨(p.y - 1).toNat, List.mem_range.2 (by omega), ?_⟩
  rw [Point.ext_iff]
  constructor <;> simp <;> omega

theorem length_insideCells (width length : Nat) :
    (insideCells width length).length = width * length := by
  simp [insideCells, List.length_flatMap, List.map_const']

/-- The search of a well-formed maze ends within its bound. -/
theorem WellFormed.search_ne_unfinished {m : Maze} (h : m.WellFormed) {start goal : Point}
    (hs : m.isFree start = true) :
    Path.search m.isFree goal m.searchBound [⟨start, []⟩] [] ≠ .unfinished := by
  refine Path.search_ne_unfinished (fun p hp => mem_insideCells (h.inside hp)) m.searchBound
    (by simpa using hs) ?_
  have hcount : Path.unvisited (insideCells m.width m.length) [] = m.width * m.length := by
    simp [Path.unvisited, length_insideCells]
  apply Nat.le_of_eq
  rw [hcount, searchBound, List.length_singleton, Nat.mul_assoc]

/-- The path that is found is a shortest trail. -/
theorem shortest_of_findPath {m : Maze} {start goal : Point} {path : List Point}
    (hp : m.findPath start goal = some path) :
    ∃ t, Path.Leads m.isFree start t ∧ t.here = goal ∧ t.points = path ∧
      ∀ u, Path.Leads m.isFree start u → u.here = goal → t.back.length ≤ u.back.length := by
  unfold findPath at hp
  split at hp
  · rename_i hfree
    rw [Bool.and_eq_true] at hfree
    have hans := @Path.search_answers m.isFree start goal m.searchBound hfree.1
    split at hp
    · rename_i points hfound
      rw [Option.some.injEq] at hp
      subst hp
      rw [hfound] at hans
      exact hans
    · cases hp
    · cases hp
  · cases hp

/-- A path is found exactly if some trail leads to the goal. -/
theorem WellFormed.findPath_isSome_iff {m : Maze} (h : m.WellFormed) {start goal : Point} :
    (m.findPath start goal).isSome = true ↔ ∃ t, Path.Leads m.isFree start t ∧ t.here = goal := by
  constructor
  · intro hp
    obtain ⟨path, hpath⟩ := Option.isSome_iff_exists.1 hp
    obtain ⟨t, ht, hgoal, -, -⟩ := shortest_of_findPath hpath
    exact ⟨t, ht, hgoal⟩
  · rintro ⟨t, ht, rfl⟩
    have hans := @Path.search_answers m.isFree start t.here m.searchBound ht.free_start
    unfold findPath
    rw [ht.free_start, ht.free_here]
    cases hsearch : Path.search m.isFree t.here m.searchBound [⟨start, []⟩] [] with
    | found points => rfl
    | exhausted =>
      rw [hsearch] at hans
      exact absurd rfl (hans t ht)
    | unfinished => exact absurd hsearch (h.search_ne_unfinished ht.free_start)

/-! ## Linked cells -/

/-- One can walk from a cell to another. -/
def Linked (m : Maze) (p q : Point) : Prop := ∃ t, Path.Leads m.isFree p t ∧ t.here = q

variable {m : Maze} {p q r : Point}

theorem Linked.refl (h : m.isFree p = true) : m.Linked p p := ⟨_, .start h, rfl⟩

theorem Linked.tail (h : m.Linked p q) (hn : Path.Neighbour q r) (hr : m.isFree r = true) :
    m.Linked p r := by
  obtain ⟨t, ht, rfl⟩ := h
  exact ⟨_, .extend ht hn hr, rfl⟩

theorem Linked.trans (h : m.Linked p q) (h' : m.Linked q r) : m.Linked p r := by
  obtain ⟨t, ht, rfl⟩ := h'
  induction ht with
  | start _ => exact h
  | extend _ hn hp ih => exact ih.tail hn hp

/-- Walks can be taken back. -/
theorem Linked.symm (h : m.Linked p q) : m.Linked q p := by
  obtain ⟨t, ht, rfl⟩ := h
  induction ht with
  | start hs => exact .refl hs
  | extend ht hn hp ih => exact ((Linked.refl hp).tail hn.symm ht.free_here).trans ih

/-- The point a number of steps further. -/
def ahead (p d : Point) (n : Nat) : Point := ⟨p.x + n * d.x, p.y + n * d.y⟩

/-- A line of free cells links its ends. -/
theorem linked_ahead {d : Point} (hd : d ∈ Path.steps) (n : Nat)
    (hfree : ∀ k ≤ n, m.isFree (ahead p d k) = true) : m.Linked p (ahead p d n) := by
  have hstart : ahead p d 0 = p := by
    rw [Point.ext_iff]
    constructor <;> simp [ahead]
  induction n with
  | zero =>
    rw [hstart]
    exact .refl (hstart ▸ hfree 0 (Nat.le_refl 0))
  | succ n ih =>
    refine (ih fun k hk => hfree k (by omega)).tail ⟨d, hd, ?_⟩ (hfree (n + 1) (Nat.le_refl _))
    rw [Point.ext_iff]
    constructor <;> simp [ahead, Int.add_mul] <;> omega

/-- A line between two cells on free ground links them. -/
theorem linked_ahead_of_inside {width length : Nat}
    (hfree : ∀ p : Point, p.Inside width length → m.isFree p = true) {d : Point}
    (hd : d ∈ Path.steps) {n : Nat} (hp : p.Inside width length)
    (hq : (ahead p d n).Inside width length) : m.Linked p (ahead p d n) := by
  apply linked_ahead hd
  intro k hk
  apply hfree
  simp only [Path.steps, List.mem_cons, List.not_mem_nil, or_false] at hd
  unfold Point.Inside ahead at *
  rcases hd with rfl | rfl | rfl | rfl <;> simp only at * <;> omega

/-- On free ground all cells are linked: along a row first, then along a column. -/
theorem linked_of_inside {width length : Nat}
    (hfree : ∀ p : Point, p.Inside width length → m.isFree p = true)
    (hp : p.Inside width length) (hq : q.Inside width length) : m.Linked p q := by
  have hrow : ∀ {x x' y : Int}, x ≤ x' → Point.Inside ⟨x, y⟩ width length →
      Point.Inside ⟨x', y⟩ width length → m.Linked ⟨x, y⟩ ⟨x', y⟩ := by
    intro x x' y hle hx hx'
    have hend : ahead ⟨x, y⟩ ⟨1, 0⟩ (x' - x).toNat = ⟨x', y⟩ := by
      rw [Point.ext_iff]
      constructor <;> simp only [ahead] <;> omega
    rw [← hend]
    exact linked_ahead_of_inside hfree (by decide) hx (hend ▸ hx')
  have hcolumn : ∀ {x y y' : Int}, y ≤ y' → Point.Inside ⟨x, y⟩ width length →
      Point.Inside ⟨x, y'⟩ width length → m.Linked ⟨x, y⟩ ⟨x, y'⟩ := by
    intro x y y' hle hy hy'
    have hend : ahead ⟨x, y⟩ ⟨0, 1⟩ (y' - y).toNat = ⟨x, y'⟩ := by
      rw [Point.ext_iff]
      constructor <;> simp only [ahead] <;> omega
    rw [← hend]
    exact linked_ahead_of_inside hfree (by decide) hy (hend ▸ hy')
  have hcorner : Point.Inside ⟨q.x, p.y⟩ width length :=
    ⟨hq.1, hq.2.1, hp.2.2.1, hp.2.2.2⟩
  have h1 : m.Linked p ⟨q.x, p.y⟩ := by
    rcases Int.le_total p.x q.x with h | h
    · exact hrow h hp hcorner
    · exact (hrow h hcorner hp).symm
  have h2 : m.Linked ⟨q.x, p.y⟩ q := by
    rcases Int.le_total p.y q.y with h | h
    · exact hcolumn h hcorner hq
    · exact (hcolumn h hq hcorner).symm
  exact h1.trans h2

/-- Nothing is out of reach exactly if a path is found to each thing that the robot needs. -/
theorem reachIssues_eq_nil_iff :
    m.reachIssues = [] ↔
      ∀ p ∈ [m.correctKey, m.door, m.exit], (m.findPath m.robot.location p).isSome = true := by
  simp only [reachIssues, List.filterMap_eq_nil_iff, List.mem_cons, List.not_mem_nil, or_false,
    forall_eq_or_imp, forall_eq, ite_eq_left_iff, reduceCtorEq, imp_false, not_not]

/-- In a built maze the robot can walk to the correct key, the door and the exit. -/
theorem Built.linked (h : m.Built) :
    ∀ p ∈ [m.correctKey, m.door, m.exit], m.Linked m.robot.location p := by
  have hwf := h.wellFormed
  cases h with
  | @room width length key door exit robot _ h =>
    obtain ⟨-, -, hin, heading, -, rfl⟩ := room_eq_ok_iff.1 h
    intro p hp
    refine linked_of_inside ?_ (hin robot (by simp)) (hin p ?_)
    · intro q hq
      rw [isFree, Bool.not_eq_true', ← Bool.not_eq_true, has_cellAt_ofRoom hin]
      simpa using hq
    · simp only [ofRoom, List.mem_cons, List.not_mem_nil, or_false] at hp ⊢
      tauto
  | rows h =>
    obtain ⟨-, -, robot, door, exit, key, heading, -, rfl, hreach⟩ := ofRows_eq_ok_iff.1 h
    intro p hp
    exact hwf.findPath_isSome_iff.1 (reachIssues_eq_nil_iff.1 hreach p hp)

end Maze

end RobotMaze

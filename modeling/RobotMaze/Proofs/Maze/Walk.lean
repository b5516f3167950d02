import RobotMaze.Proofs.Maze.Attempt
import RobotMaze.Proofs.Maze.Reach
import Mathlib.Data.List.Chain
import Mathlib.Data.List.Induction

/-!
# Shortest walks

A walk is told without the search: a list of free points, each one step to the right, to the left,
up or down from the one before.  The trails of the search are the walks from its start, so what is
known about trails holds for walks.

* `Path.Walk` — the walks between two points;
* `Path.Leads.walk` and `Path.Walk.exists_leads` — trails are walks, and walks are trails;
* `Maze.Built.findPath_shortest_walk` — after any attempts at actions, a path is found exactly if
  there is a walk, and it is a shortest one.
-/

namespace RobotMaze

/-- Two points are one horizontal or vertical step apart. -/
def Point.Adjacent (p q : Point) : Prop := (q.x - p.x).natAbs + (q.y - p.y).natAbs = 1

namespace Path

/-- The search steps to the adjacent points and to no others. -/
theorem neighbour_iff_adjacent {p q : Point} : Neighbour p q ↔ p.Adjacent q := by
  unfold Point.Adjacent
  constructor
  · rintro ⟨d, hd, rfl⟩
    simp only [steps, List.mem_cons, List.not_mem_nil, or_false] at hd
    rcases hd with rfl | rfl | rfl | rfl <;> simp only [Point.add_x, Point.add_y] <;> omega
  · intro h
    have hd : (⟨q.x - p.x, q.y - p.y⟩ : Point) ∈ steps := by
      simp only [steps, List.mem_cons, List.not_mem_nil, or_false, Point.mk.injEq]
      omega
    refine ⟨_, hd, ?_⟩
    rw [Point.ext_iff]
    constructor <;> simp only [Point.add_x, Point.add_y] <;> omega

/-! ## Walks and trails -/

/-- A walk from `start` to `goal`, both included. -/
structure Walk (free : Point → Bool) (start goal : Point) (points : List Point) : Prop where
  starts : points.head? = some start
  ends : points.getLast? = some goal
  free : ∀ p ∈ points, free p = true
  adjacent : points.IsChain Point.Adjacent

variable {free : Point → Bool} {start goal p : Point} {points : List Point}

theorem points_extend (t : Trail) (p : Point) : (t.extend p).points = t.points ++ [p] := by
  simp [Trail.points, Trail.extend]

theorem walk_singleton (h : free start = true) : Walk free start start [start] where
  starts := rfl
  ends := rfl
  free p hp := by
    rw [List.mem_singleton.1 hp]
    exact h
  adjacent := .singleton start

/-- A walk can be continued by a step to a free point. -/
theorem Walk.concat (h : Walk free start goal points) (hadjacent : goal.Adjacent p)
    (hp : free p = true) : Walk free start p (points ++ [p]) where
  starts := by
    rw [List.head?_append, h.starts]
    rfl
  ends := List.getLast?_concat
  free q hq := by
    rcases List.mem_append.1 hq with hq | hq
    · exact h.free q hq
    · rw [List.mem_singleton.1 hq]
      exact hp
  adjacent := by
    refine List.isChain_append.2 ⟨h.adjacent, .singleton p, ?_⟩
    intro q hq r hr
    obtain rfl : goal = q := Option.some.inj (h.ends.symm.trans hq)
    obtain rfl : p = r := Option.some.inj hr
    exact hadjacent

/-- The points of a trail are a walk. -/
theorem Leads.walk {t : Trail} (h : Leads free start t) : Walk free start t.here t.points := by
  induction h with
  | start hstart => exact walk_singleton hstart
  | @extend t p _ hn hp ih =>
    rw [points_extend]
    exact ih.concat (neighbour_iff_adjacent.1 hn) hp

/-- The last step of a walk can be taken off, unless it stays where it starts. -/
theorem Walk.dropLast (h : Walk free start goal (points ++ [p])) :
    goal = p ∧ free p = true ∧
      (points = [] ∧ start = p ∨ ∃ q, Walk free start q points ∧ q.Adjacent p) := by
  have hgoal : goal = p := by simpa using h.ends.symm
  have hp : free p = true := h.free p (by simp)
  refine ⟨hgoal, hp, ?_⟩
  cases hlast : points.getLast? with
  | none =>
    have hnil := List.getLast?_eq_none_iff.1 hlast
    subst hnil
    exact .inl ⟨rfl, (Option.some.inj h.starts).symm⟩
  | some q =>
    obtain ⟨hchain, -, hstep⟩ := List.isChain_append.1 h.adjacent
    refine .inr ⟨q, ⟨?_, hlast, fun r hr => h.free r (List.mem_append_left _ hr), hchain⟩,
      hstep q hlast p rfl⟩
    have hne : points ≠ [] := by
      rintro rfl
      cases hlast
    rw [← h.starts, List.head?_append_of_ne_nil _ hne]

/-- The points of a walk are those of a trail. -/
theorem Walk.exists_leads (h : Walk free start goal points) :
    ∃ t, Leads free start t ∧ t.here = goal ∧ t.points = points := by
  -- a trail grows at its end, so the last point is split off
  induction points using List.reverseRecOn generalizing goal with
  | nil => cases h.starts
  | append_singleton points p ih =>
    obtain ⟨rfl, hp, ⟨rfl, rfl⟩ | ⟨q, hwalk, hadjacent⟩⟩ := h.dropLast
    · exact ⟨⟨start, []⟩, .start hp, rfl, rfl⟩
    · obtain ⟨t, ht, rfl, rfl⟩ := ih hwalk
      exact ⟨t.extend goal, .extend ht (neighbour_iff_adjacent.2 hadjacent) hp, rfl,
        points_extend t goal⟩

end Path

namespace Maze

/-- A walk of the robot from a point to another. -/
abbrev Walk (m : Maze) (start goal : Point) (points : List Point) : Prop :=
  Path.Walk m.isFree start goal points

theorem WellFormed.findPath_isSome_iff_walk {m : Maze} (h : m.WellFormed) {start goal : Point} :
    (m.findPath start goal).isSome = true ↔ ∃ points, m.Walk start goal points := by
  rw [h.findPath_isSome_iff]
  constructor
  · rintro ⟨t, ht, rfl⟩
    exact ⟨t.points, ht.walk⟩
  · rintro ⟨points, hwalk⟩
    obtain ⟨t, ht, hgoal, -⟩ := hwalk.exists_leads
    exact ⟨t, ht, hgoal⟩

/-- The path that is found is a walk, and no walk has fewer points. -/
theorem walk_of_findPath {m : Maze} {start goal : Point} {path : List Point}
    (h : m.findPath start goal = some path) :
    m.Walk start goal path ∧ ∀ points, m.Walk start goal points → path.length ≤ points.length := by
  obtain ⟨t, ht, rfl, rfl, hshort⟩ := shortest_of_findPath h
  refine ⟨ht.walk, fun points hwalk => ?_⟩
  obtain ⟨u, hu, hgoal, rfl⟩ := hwalk.exists_leads
  have hle := hshort u hu hgoal
  rw [Path.length_points, Path.length_points]
  omega

/-- **The path search is sound, complete and shortest.**  In a built maze, after any attempts at
actions and between any two points, a path is found exactly if there is a walk; the path is a walk,
and no walk between the points is shorter. -/
theorem Built.findPath_shortest_walk {m : Maze} (h : m.Built) (actions : List Action)
    (start goal : Point) :
    (((m.after actions).findPath start goal).isSome = true ↔
        ∃ points, (m.after actions).Walk start goal points) ∧
      ∀ path, (m.after actions).findPath start goal = some path →
        (m.after actions).Walk start goal path ∧
          ∀ points, (m.after actions).Walk start goal points → path.length ≤ points.length :=
  ⟨(h.wellFormed.after actions).1.findPath_isSome_iff_walk, fun _ hpath => walk_of_findPath hpath⟩

/-- A map in which a wall stands between the robot and the exit. -/
def detour : List Text := ["*******", "*R.*.E*", "*..*..*", "*K...D*", "*******"]

/-- After a move and a turn, the way around the wall has seven points and no way has fewer. -/
theorem detour_findPath_shortest_walk :
    ∃ m, ofRows detour 3 none = .ok m ∧
      (m.after [.moveForward, .turnLeft]).Walk ⟨2, 1⟩ ⟨4, 1⟩
        [⟨2, 1⟩, ⟨2, 2⟩, ⟨2, 3⟩, ⟨3, 3⟩, ⟨4, 3⟩, ⟨4, 2⟩, ⟨4, 1⟩] ∧
      ∀ points, (m.after [.moveForward, .turnLeft]).Walk ⟨2, 1⟩ ⟨4, 1⟩ points →
        7 ≤ points.length := by
  have h : ofRows detour 3 none
      = .ok (ofDrawing detour ⟨1, 1⟩ ⟨5, 3⟩ ⟨5, 1⟩ ⟨1, 3⟩ .east) := rfl
  exact ⟨_, h, (Built.findPath_shortest_walk (.rows h) [.moveForward, .turnLeft] ⟨2, 1⟩ ⟨4, 1⟩).2
    [⟨2, 1⟩, ⟨2, 2⟩, ⟨2, 3⟩, ⟨3, 3⟩, ⟨4, 3⟩, ⟨4, 2⟩, ⟨4, 1⟩] rfl⟩

end Maze

end RobotMaze

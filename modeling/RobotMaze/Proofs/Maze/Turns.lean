import RobotMaze.Proofs.Maze.Attempt
import RobotMaze.Proofs.Maze.Reach
import Mathlib.Data.List.Perm.Subperm

/-!
# The turns of the search

A search takes one trail after another from its queue.  A cell is marked when a trail to it is taken
and not when the trail is queued, so several trails to one cell may wait at the same time.  Only the
first of them is extended, and it leaves at most four trails behind.

`Path.Turns` tells the turns of a search without a limit: there is nothing to tell about a search
that does not end.

* `Path.Turns.search_eq` — a search that is granted its turns answers what they end with;
* `Path.Turns.nodup_expanded`, `Path.Turns.length_taken_le` — no cell is expanded twice, and all
  trails but the first ones come from cells that are expanded;
* `Maze.Built.search_ends` — in a built maze every search ends, after at most
  `1 + 4 * width * length` turns.
-/

namespace RobotMaze

namespace Path

/-- The path of an answer, if one was found. -/
def Search.path? : Search → Option (List Point)
  | .found points => some points
  | .exhausted => none
  | .unfinished => none

/-- The turns of a search up to its end.  In each turn one trail is taken from the front of the
queue: `taken` are the cells at their ends, in order, and `expanded` those of them from which the
search goes on. -/
inductive Turns (free : Point → Bool) (goal : Point) :
    (queue : List Trail) → (visited taken expanded : List Point) → (answer : Search) → Prop where
  | exhausted {visited : List Point} : Turns free goal [] visited [] [] .exhausted
  | found {t : Trail} {queue : List Trail} {visited : List Point} (hgoal : t.here = goal) :
      Turns free goal (t :: queue) visited [t.here] [] (.found t.points)
  /-- A trail to a cell that was expanded before is dropped. -/
  | again {t : Trail} {queue : List Trail} {visited taken expanded : List Point} {answer : Search}
      (hgoal : t.here ≠ goal) (hvisited : t.here ∈ visited)
      (rest : Turns free goal queue visited taken expanded answer) :
      Turns free goal (t :: queue) visited (t.here :: taken) expanded answer
  | expand {t : Trail} {queue : List Trail} {visited taken expanded : List Point}
      {answer : Search} (hgoal : t.here ≠ goal) (hvisited : t.here ∉ visited)
      (rest : Turns free goal (queue ++ onward free (t.here :: visited) t) (t.here :: visited)
        taken expanded answer) :
      Turns free goal (t :: queue) visited (t.here :: taken) (t.here :: expanded) answer

variable {free : Point → Bool} {goal : Point} {queue : List Trail}
  {visited taken expanded : List Point} {answer : Search}

/-! ## Turns and answers -/

/-- A search that is granted its turns answers what they end with. -/
theorem Turns.search_eq (h : Turns free goal queue visited taken expanded answer) {fuel : Nat}
    (hfuel : taken.length ≤ fuel) : search free goal fuel queue visited = answer := by
  induction h generalizing fuel with
  | exhausted => rw [search]
  | found hgoal =>
    obtain ⟨fuel, rfl⟩ := Nat.exists_eq_add_of_le' hfuel
    rw [List.length_singleton, search, if_pos hgoal]
  | again hgoal hvisited rest ih =>
    obtain ⟨fuel, rfl⟩ := Nat.exists_eq_add_of_le' hfuel
    rw [List.length_cons, ← Nat.add_assoc, search, if_neg hgoal, if_pos (by simpa using hvisited)]
    exact ih (Nat.le_add_left _ _)
  | expand hgoal hvisited rest ih =>
    obtain ⟨fuel, rfl⟩ := Nat.exists_eq_add_of_le' hfuel
    rw [List.length_cons, ← Nat.add_assoc, search, if_neg hgoal, if_neg (by simpa using hvisited)]
    exact ih (Nat.le_add_left _ _)

/-- A search that gives an answer has come to the end of its turns. -/
theorem exists_turns {fuel : Nat} (h : search free goal fuel queue visited ≠ .unfinished) :
    ∃ taken expanded answer, Turns free goal queue visited taken expanded answer := by
  induction fuel generalizing queue visited with
  | zero =>
    cases queue with
    | nil => exact ⟨_, _, _, .exhausted⟩
    | cons t queue =>
      rw [search] at h
      exact absurd rfl h
  | succ fuel ih =>
    cases queue with
    | nil => exact ⟨_, _, _, .exhausted⟩
    | cons t queue =>
      rw [search] at h
      by_cases hgoal : t.here = goal
      · exact ⟨_, _, _, .found hgoal⟩
      · rw [if_neg hgoal] at h
        by_cases hvisited : visited.contains t.here = true
        · rw [if_pos hvisited] at h
          obtain ⟨taken, expanded, answer, hrest⟩ := ih h
          exact ⟨_, _, _, .again hgoal (by simpa using hvisited) hrest⟩
        · rw [if_neg hvisited] at h
          obtain ⟨taken, expanded, answer, hrest⟩ := ih h
          exact ⟨_, _, _, .expand hgoal (by simpa using hvisited) hrest⟩

/-! ## What is expanded -/

theorem Turns.not_mem_visited (h : Turns free goal queue visited taken expanded answer) {p : Point}
    (hp : p ∈ expanded) : p ∉ visited := by
  induction h with
  | exhausted => cases hp
  | found _ => cases hp
  | again _ _ _ ih => exact ih hp
  | expand _ hvisited _ ih =>
    rcases List.mem_cons.1 hp with rfl | hp
    · exact hvisited
    · exact fun hold => ih hp (List.mem_cons_of_mem _ hold)

/-- No cell is expanded twice. -/
theorem Turns.nodup_expanded (h : Turns free goal queue visited taken expanded answer) :
    expanded.Nodup := by
  induction h with
  | exhausted => exact .nil
  | found _ => exact .nil
  | again _ _ _ ih => exact ih
  | expand _ _ rest ih =>
    exact List.nodup_cons.2 ⟨fun hp => rest.not_mem_visited hp List.mem_cons_self, ih⟩

/-- The cells that are expanded are free. -/
theorem Turns.free_of_mem_expanded (h : Turns free goal queue visited taken expanded answer)
    (hqueue : ∀ t ∈ queue, free t.here = true) {p : Point} (hp : p ∈ expanded) :
    free p = true := by
  induction h with
  | exhausted => cases hp
  | found _ => cases hp
  | again _ _ _ ih => exact ih (List.forall_mem_cons.1 hqueue).2 hp
  | expand _ _ _ ih =>
    -- only trails to free cells are queued behind a cell
    rw [List.forall_mem_cons] at hqueue
    rcases List.mem_cons.1 hp with rfl | hp
    · exact hqueue.1
    · refine ih (fun u hu => ?_) hp
      rcases List.mem_append.1 hu with hu | hu
      · exact hqueue.2 u hu
      · obtain ⟨q, -, hq, -, rfl⟩ := mem_onward_iff.1 hu
        exact hq

/-- The trails that are taken were queued from the beginning, or behind a cell that is expanded, at
most four for each. -/
theorem Turns.length_taken_le (h : Turns free goal queue visited taken expanded answer) :
    taken.length ≤ queue.length + 4 * expanded.length := by
  induction h with
  | exhausted => exact Nat.le_refl 0
  | found _ =>
    rw [List.length_singleton, List.length_cons]
    omega
  | again _ _ _ ih =>
    rw [List.length_cons, List.length_cons]
    omega
  | @expand t queue visited _ _ _ _ _ _ ih =>
    -- the four trails behind the cell are paid for by the cell itself
    have honward := length_onward_le free (t.here :: visited) t
    rw [List.length_append] at ih
    rw [List.length_cons, List.length_cons, List.length_cons]
    omega

end Path

namespace Maze

variable {m : Maze} {start goal : Point}

/-- The turns of a search in a maze. -/
abbrev Turns (m : Maze) (start goal : Point) (taken expanded : List Point)
    (answer : Path.Search) : Prop :=
  Path.Turns m.isFree goal [⟨start, []⟩] [] taken expanded answer

theorem findPath_eq_path? (hstart : m.isFree start = true) (hgoal : m.isFree goal = true) :
    m.findPath start goal
      = (Path.search m.isFree goal m.searchBound [⟨start, []⟩] []).path? := by
  rw [findPath, hstart, hgoal]
  cases Path.search m.isFree goal m.searchBound [⟨start, []⟩] [] with
  | found points => rfl
  | exhausted => rfl
  | unfinished => rfl

theorem findPath_of_not_free (h : m.isFree start = false ∨ m.isFree goal = false) :
    m.findPath start goal = none := by
  rw [findPath, if_neg]
  rw [Bool.and_eq_true]
  rintro ⟨hstart, hgoal⟩
  rcases h with h | h
  · exact Bool.false_ne_true (h.symm.trans hstart)
  · exact Bool.false_ne_true (h.symm.trans hgoal)

/-- In a well-formed maze there are not more cells to expand than lie inside of the walls. -/
theorem WellFormed.length_expanded_le (h : m.WellFormed) (hstart : m.isFree start = true)
    {taken expanded : List Point} {answer : Path.Search}
    (hturns : m.Turns start goal taken expanded answer) :
    expanded.length ≤ m.width * m.length := by
  have hinside : expanded ⊆ insideCells m.width m.length := fun p hp =>
    mem_insideCells (h.inside (hturns.free_of_mem_expanded (by simpa using hstart) hp))
  rw [← length_insideCells m.width m.length]
  exact (hturns.nodup_expanded.subperm hinside).length_le

/-- **Every search ends.**  In a built maze, after any attempts at actions, a search between two
free points comes to an end, and its end is the answer that is given.  It expands no cell twice, and
every trail that it takes is the first one or one of at most four behind a cell that it expands; so
it takes at most `1 + 4 * width * length` trails.  If one of the points is not free, there is no
search. -/
theorem Built.search_ends {b : Maze} (h : b.Built) (actions : List Action) (start goal : Point) :
    let m := b.after actions
    (m.isFree start = true → m.isFree goal = true →
      (∃ taken expanded answer, m.Turns start goal taken expanded answer) ∧
      ∀ taken expanded answer, m.Turns start goal taken expanded answer →
        m.findPath start goal = answer.path? ∧
        expanded.Nodup ∧
        taken.length ≤ 1 + 4 * expanded.length ∧
        taken.length ≤ 1 + 4 * m.width * m.length) ∧
    (m.isFree start = false ∨ m.isFree goal = false → m.findPath start goal = none) := by
  intro m
  have hm : m.WellFormed := (h.wellFormed.after actions).1
  refine ⟨fun hstart hgoal => ⟨Path.exists_turns (hm.search_ne_unfinished hstart), ?_⟩,
    findPath_of_not_free⟩
  intro taken expanded answer hturns
  have htaken : taken.length ≤ 1 + 4 * expanded.length := hturns.length_taken_le
  have hbound : taken.length ≤ m.searchBound := by
    have hexpanded := hm.length_expanded_le hstart hturns
    rw [searchBound, Nat.mul_assoc]
    omega
  refine ⟨?_, hturns.nodup_expanded, htaken, hbound⟩
  rw [findPath_eq_path? hstart hgoal, hturns.search_eq hbound]

/-- A room of three columns and two rows. -/
def smallRoom : List Text := ["*****", "*RKD*", "*..E*", "*****"]

/-- On the way from one corner of the room to the other, two trails to the cell in the middle of the
second row are taken, and the cell is expanded once. -/
theorem smallRoom_search_ends :
    ∃ b, ofRows smallRoom 3 none = .ok b ∧
      (b.after [.moveForward]).Turns ⟨1, 1⟩ ⟨3, 2⟩
        [⟨1, 1⟩, ⟨2, 1⟩, ⟨1, 2⟩, ⟨3, 1⟩, ⟨2, 2⟩, ⟨2, 2⟩, ⟨3, 2⟩]
        [⟨1, 1⟩, ⟨2, 1⟩, ⟨1, 2⟩, ⟨3, 1⟩, ⟨2, 2⟩]
        (.found [⟨1, 1⟩, ⟨2, 1⟩, ⟨3, 1⟩, ⟨3, 2⟩]) ∧
      (b.after [.moveForward]).findPath ⟨1, 1⟩ ⟨3, 2⟩
        = some [⟨1, 1⟩, ⟨2, 1⟩, ⟨3, 1⟩, ⟨3, 2⟩] := by
  have h : ofRows smallRoom 3 none
      = .ok (ofDrawing smallRoom ⟨1, 1⟩ ⟨3, 1⟩ ⟨3, 2⟩ ⟨2, 1⟩ .east) := rfl
  have hturns : ((ofDrawing smallRoom ⟨1, 1⟩ ⟨3, 1⟩ ⟨3, 2⟩ ⟨2, 1⟩ .east).after
      [.moveForward]).Turns ⟨1, 1⟩ ⟨3, 2⟩
        [⟨1, 1⟩, ⟨2, 1⟩, ⟨1, 2⟩, ⟨3, 1⟩, ⟨2, 2⟩, ⟨2, 2⟩, ⟨3, 2⟩]
        [⟨1, 1⟩, ⟨2, 1⟩, ⟨1, 2⟩, ⟨3, 1⟩, ⟨2, 2⟩]
        (.found [⟨1, 1⟩, ⟨2, 1⟩, ⟨3, 1⟩, ⟨3, 2⟩]) := by
    refine .expand (by decide) (by decide) ?_
    refine .expand (by decide) (by decide) ?_
    refine .expand (by decide) (by decide) ?_
    refine .expand (by decide) (by decide) ?_
    refine .expand (by decide) (by decide) ?_
    refine .again (by decide) (by decide) ?_
    exact .found rfl
  exact ⟨_, h, hturns,
    (((Built.search_ends (.rows h) [.moveForward] ⟨1, 1⟩ ⟨3, 2⟩).1 rfl rfl).2 _ _ _ hturns).1⟩

end Maze

end RobotMaze

import RobotMaze.Proofs.Maze.Attempt
import RobotMaze.Proofs.Maze.Reach
import Mathlib.Data.List.Induction

/-!
# Paths and the motion of the robot

The path search steps to neighbours of a cell; the robot turns and moves to the cell before it.
Both go through the same cells with the same number of steps.

* `Maze.WellFormed.leads_after` — what the robot does is a trail, with one step for each accepted
  move;
* `Maze.WellFormed.drive` — a trail can be driven by turns and accepted moves, with one move for
  each step;
* `Maze.WellFormed.walk` — so the robot can walk to every cell that is linked to its own;
* `Maze.Built.findPath_agrees_motion` — so the search finds exactly the cells that the robot can
  get to, and its paths are as long as the shortest drives.
-/

namespace RobotMaze

/-! ## Headings -/

/-- The neighbours of a cell lie in the four headings. -/
theorem Path.neighbour_iff {p q : Point} :
    Path.Neighbour p q ↔ ∃ h : Heading, q = p + h.offset := by
  constructor
  · rintro ⟨d, hd, rfl⟩
    simp only [Path.steps, List.mem_cons, List.not_mem_nil, or_false] at hd
    rcases hd with rfl | rfl | rfl | rfl
    · exact ⟨.east, rfl⟩
    · exact ⟨.west, rfl⟩
    · exact ⟨.south, rfl⟩
    · exact ⟨.north, rfl⟩
  · rintro ⟨h, rfl⟩
    refine ⟨h.offset, ?_, rfl⟩
    cases h <;> decide

/-- Turns that lead from one heading to another. -/
def Heading.turnsTo (h target : Heading) : List Action :=
  if h = target then []
  else if h.left = target then [.turnLeft]
  else if h.right = target then [.turnRight]
  else [.turnLeft, .turnLeft]

namespace Maze

/-! ## Accepted actions in a row -/

/-- The maze after actions that are all accepted. -/
def performAll (m : Maze) (actions : List Action) : Except Rejection Maze :=
  actions.foldlM perform m

theorem performAll_cons (m : Maze) (a : Action) (rest : List Action) :
    m.performAll (a :: rest) = m.perform a >>= fun n => n.performAll rest := rfl

/-- Actions that are all accepted can be put together. -/
theorem performAll_append {l m n : Maze} {first second : List Action}
    (h : l.performAll first = .ok m) (h' : m.performAll second = .ok n) :
    l.performAll (first ++ second) = .ok n := by
  unfold performAll at *
  rw [List.foldlM_append, h]
  exact h'

theorem attempt_of_perform {m n : Maze} {a : Action} (h : m.perform a = .ok n) :
    m.attempt a = n := by
  rw [attempt, h]

/-- The first of several accepted actions is accepted, and so are the others after it. -/
theorem performAll_cons_eq_ok_iff {m n : Maze} {a : Action} {rest : List Action} :
    m.performAll (a :: rest) = .ok n ↔ ∃ l, m.perform a = .ok l ∧ l.performAll rest = .ok n := by
  rw [performAll_cons]
  cases m.perform a with
  | ok l => simp [bind, Except.bind]
  | error e => simp [bind, Except.bind]

/-- Accepted actions are attempts. -/
theorem after_of_performAll {m n : Maze} {actions : List Action}
    (h : m.performAll actions = .ok n) : m.after actions = n := by
  induction actions generalizing m with
  | nil =>
    cases h
    rfl
  | cons a rest ih =>
    obtain ⟨l, hl, hrest⟩ := performAll_cons_eq_ok_iff.1 h
    rw [after_cons, attempt_of_perform hl]
    exact ih hrest

/-! ## Counting moves -/

/-- Whether an attempt is an accepted move forward. -/
def moves (m : Maze) (a : Action) : Bool := a == .moveForward && (m.perform a).isOk

/-- The number of accepted moves forward among attempts. -/
def movesIn (m : Maze) : List Action → Nat
  | [] => 0
  | a :: rest => (if m.moves a then 1 else 0) + (m.attempt a).movesIn rest

theorem movesIn_append (m : Maze) (first second : List Action) :
    m.movesIn (first ++ second) = m.movesIn first + (m.after first).movesIn second := by
  induction first generalizing m with
  | nil => simp [movesIn]
  | cons a first ih =>
    rw [List.cons_append, movesIn, movesIn, ih, after_cons, Nat.add_assoc]

/-- An attempt leaves the robot where it is, or it is an accepted move to the free cell before it.
-/
theorem attempt_cases (m : Maze) (a : Action) :
    (m.moves a = false ∧ (m.attempt a).robot.location = m.robot.location) ∨
      (m.moves a = true ∧ m.isFree m.robot.front = true ∧
        (m.attempt a).robot.location = m.robot.front) := by
  unfold attempt moves
  cases hn : m.perform a with
  | ok n =>
    rcases perform_cases hn with ⟨rfl, hfree, rfl⟩ | ⟨rfl, rfl⟩ | ⟨rfl, rfl⟩ | ⟨rfl, -, rfl⟩ |
      ⟨rfl, rfl⟩ | ⟨rfl, rfl⟩
    · exact .inr ⟨rfl, hfree, rfl⟩
    all_goals exact .inl ⟨rfl, rfl⟩
  | error e => exact .inl ⟨Bool.and_false _, rfl⟩

/-- **What the robot does is a trail.**  After any attempts the robot stands at the end of a trail
with one step for each accepted move. -/
theorem WellFormed.leads_after {m : Maze} (h : m.WellFormed) (actions : List Action) :
    ∃ t, Path.Leads m.isFree m.robot.location t ∧ t.here = (m.after actions).robot.location ∧
      t.back.length = m.movesIn actions := by
  -- a trail grows at its end, so the last action is split off
  induction actions using List.reverseRecOn with
  | nil => exact ⟨_, .start (by simp [isFree, h.robot_free]), rfl, rfl⟩
  | append_singleton actions a ih =>
    obtain ⟨t, ht, hhere, hlen⟩ := ih
    rw [after_append, movesIn_append, after_cons, after_nil, movesIn, movesIn, Nat.add_zero]
    rcases (m.after actions).attempt_cases a with ⟨hm, hloc⟩ | ⟨hm, hfree, hloc⟩
    · exact ⟨t, ht, by rw [hloc, hhere], by simp [hm, hlen]⟩
    · refine ⟨t.extend (m.after actions).robot.front, .extend ht ?_ ?_, ?_, ?_⟩
      · exact Path.neighbour_iff.2 ⟨_, by rw [hhere]; rfl⟩
      · rw [← (h.after actions).2.isFree]
        exact hfree
      · rw [hloc, Path.here_extend]
      · simp [hm, hlen]

/-! ## Driving a trail -/

/-- An action that turns or moves the robot. -/
def IsMotion (a : Action) : Prop := a = .turnLeft ∨ a = .turnRight ∨ a = .moveForward

/-- Turns are accepted and lead to the target. -/
theorem performAll_turnsTo (m : Maze) (target : Heading) :
    m.performAll (m.robot.facing.turnsTo target) = .ok (m.turn fun _ => target) := by
  obtain ⟨name, width, length, grid, ⟨location, facing⟩⟩ := m
  cases facing <;> cases target <;> rfl

theorem eq_turn_of_mem_turnsTo {h target : Heading} {a : Action} (ha : a ∈ h.turnsTo target) :
    a = .turnLeft ∨ a = .turnRight := by
  unfold Heading.turnsTo at ha
  split at ha
  · cases ha
  split at ha
  · exact .inl (List.mem_singleton.1 ha)
  split at ha
  · exact .inr (List.mem_singleton.1 ha)
  · exact .inl (by simpa using ha)

/-- What the robot carries and has opened is the same in two mazes. -/
def SameFlags (m n : Maze) : Prop :=
  n.hasKey = m.hasKey ∧ n.hasCorrectKey = m.hasCorrectKey ∧ n.hasOpenedDoor = m.hasOpenedDoor

/-- **A trail can be driven.**  Turns and accepted moves lead the robot along a trail, with one move
for each step. -/
theorem WellFormed.drive {m : Maze} (h : m.WellFormed) {t : Path.Trail}
    (ht : Path.Leads m.isFree m.robot.location t) :
    ∃ actions n, (∀ a ∈ actions, IsMotion a) ∧ m.performAll actions = .ok n ∧
      n.robot.location = t.here ∧ m.SameFlags n ∧ actions.count .moveForward = t.back.length := by
  induction ht with
  | start _ => exact ⟨[], m, by simp, rfl, rfl, ⟨rfl, rfl, rfl⟩, rfl⟩
  | @extend t p _ hn hp ih =>
    obtain ⟨actions, n, hmotion, hn', hloc, hflags, hcount⟩ := ih
    obtain ⟨target, rfl⟩ := Path.neighbour_iff.1 hn
    have hground := after_of_performAll hn' ▸ (h.after actions).2
    have hfront : (n.turn fun _ => target).robot.front = t.here + target.offset := by
      rw [← hloc]
      rfl
    have hmove : (n.turn fun _ => target).performAll [.moveForward]
        = .ok ((n.turn fun _ => target).standingAt (t.here + target.offset)) := by
      refine performAll_cons_eq_ok_iff.2 ⟨_, moveForward_eq_ok_iff.2 ⟨?_, hfront ▸ rfl⟩, rfl⟩
      rw [hfront]
      exact (hground.isFree _).trans hp
    refine ⟨actions ++ (n.robot.facing.turnsTo target ++ [.moveForward]),
      (n.turn fun _ => target).standingAt (t.here + target.offset), ?_,
      performAll_append hn' (performAll_append (n.performAll_turnsTo target) hmove), rfl, hflags,
      ?_⟩
    · intro a ha
      rcases List.mem_append.1 ha with ha | ha
      · exact hmotion a ha
      · rcases List.mem_append.1 ha with ha | ha
        · rcases eq_turn_of_mem_turnsTo ha with rfl | rfl
          · exact .inl rfl
          · exact .inr (.inl rfl)
        · exact .inr (.inr (List.mem_singleton.1 ha))
    · have hturns : (n.robot.facing.turnsTo target).count .moveForward = 0 :=
        List.count_eq_zero.2 fun ha => by
          rcases eq_turn_of_mem_turnsTo ha with ha | ha <;> cases ha
      simp [hturns, hcount]

/-- The robot walks to a cell that is linked to its own. -/
theorem WellFormed.walk {m : Maze} (h : m.WellFormed) {p : Point}
    (hp : m.Linked m.robot.location p) :
    ∃ actions n, (∀ a ∈ actions, IsMotion a) ∧ m.performAll actions = .ok n ∧
      n.robot.location = p ∧ m.SameFlags n ∧ n.WellFormed ∧ m.SameGround n := by
  obtain ⟨t, ht, rfl⟩ := hp
  obtain ⟨actions, n, hmotion, hn, hloc, hflags, -⟩ := h.drive ht
  obtain ⟨hwf, hground⟩ := h.after actions
  rw [after_of_performAll hn] at hwf hground
  exact ⟨actions, n, hmotion, hn, hloc, hflags, hwf, hground⟩

/-- The same cells are linked on the same ground. -/
theorem SameGround.linked {m n : Maze} (h : m.SameGround n) {p q : Point} (hpq : m.Linked p q) :
    n.Linked p q := by
  have hfree : n.isFree = m.isFree := funext h.isFree
  rw [Linked, hfree]
  exact hpq

/-! ## Agreement -/

/-- **Path search and robot motion agree.**  A path to a point is found exactly if some attempts at
actions bring the robot there; then no attempts do so with fewer accepted moves than the path has
steps, and some turns and moves, all accepted, do so with exactly as many. -/
theorem Built.findPath_agrees_motion {m : Maze} (h : m.Built) (p : Point) :
    ((m.findPath m.robot.location p).isSome = true ↔
        ∃ actions, (m.after actions).robot.location = p) ∧
      ∀ path, m.findPath m.robot.location p = some path →
        (∀ actions, (m.after actions).robot.location = p → path.length ≤ m.movesIn actions + 1) ∧
          ∃ actions n, (∀ a ∈ actions, IsMotion a) ∧ m.performAll actions = .ok n ∧
            n.robot.location = p ∧ path.length = actions.count .moveForward + 1 := by
  have hwf := h.wellFormed
  refine ⟨⟨?_, ?_⟩, ?_⟩
  · intro hpath
    obtain ⟨t, ht, rfl⟩ := hwf.findPath_isSome_iff.1 hpath
    obtain ⟨actions, n, -, hn, hloc, -⟩ := hwf.drive ht
    exact ⟨actions, by rw [after_of_performAll hn, hloc]⟩
  · rintro ⟨actions, rfl⟩
    obtain ⟨t, ht, hhere, -⟩ := hwf.leads_after actions
    exact hwf.findPath_isSome_iff.2 ⟨t, ht, hhere⟩
  · intro path hpath
    obtain ⟨t, ht, rfl, rfl, hshort⟩ := shortest_of_findPath hpath
    rw [Path.length_points]
    constructor
    · intro actions hloc
      obtain ⟨u, hu, hhere, hlen⟩ := hwf.leads_after actions
      have := hshort u hu (hhere.trans hloc)
      omega
    · obtain ⟨actions, n, hmotion, hn, hloc, -, hcount⟩ := hwf.drive ht
      exact ⟨actions, n, hmotion, hn, hloc, by rw [hcount]⟩

/-- In the corridor of `twoKeys` the exit is four moves away. -/
theorem twoKeys_exit_four_moves :
    ∃ m, ofRows twoKeys 3 (some ⟨4, 1⟩) = .ok m ∧
      (∀ actions, (m.after actions).robot.location = ⟨5, 1⟩ → 4 ≤ m.movesIn actions) ∧
      ∃ actions n, (∀ a ∈ actions, IsMotion a) ∧ m.performAll actions = .ok n ∧
        n.robot.location = ⟨5, 1⟩ ∧ actions.count .moveForward = 4 := by
  have h : ofRows twoKeys 3 (some ⟨4, 1⟩)
      = .ok (ofDrawing twoKeys ⟨1, 1⟩ ⟨3, 1⟩ ⟨5, 1⟩ ⟨4, 1⟩ .east) := rfl
  obtain ⟨hleast, actions, n, hmotion, hn, hloc, hcount⟩ :=
    (Built.findPath_agrees_motion (.rows h) ⟨5, 1⟩).2
      [⟨1, 1⟩, ⟨2, 1⟩, ⟨3, 1⟩, ⟨4, 1⟩, ⟨5, 1⟩] rfl
  refine ⟨_, h, fun actions hloc => Nat.le_of_succ_le_succ (hleast actions hloc), actions, n,
    hmotion, hn, hloc, (Nat.succ.inj hcount).symm⟩

end Maze

end RobotMaze

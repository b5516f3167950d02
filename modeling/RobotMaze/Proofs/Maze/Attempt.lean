import RobotMaze.Maze.Action
import RobotMaze.Proofs.Maze.WellFormed

/-!
# Sequences of attempts

No action can make a maze ill-formed: the robot only enters free cells, and outside of the ring of
walls there are none.  An attempt changes nothing but the robot, its mark on the grid, and what it
carries and has opened.

* `Maze.perform_cases` — all that an accepted action can do;
* `Maze.Built.after_wellFormed` — what holds after any sequence of attempts.
-/

namespace RobotMaze.Maze

/-! ## Ground -/

/-- Two mazes differ at most in the robot and in what it carries and has opened. -/
structure SameGround (m n : Maze) : Prop where
  width : n.width = m.width
  length : n.length = m.length
  keys : n.keys = m.keys
  correctKey : n.correctKey = m.correctKey
  door : n.door = m.door
  exit : n.exit = m.exit
  /-- A cell keeps every bit but the one of the robot. -/
  cells : ∀ p, (n.cellAt p).erase .robot = (m.cellAt p).erase .robot

theorem SameGround.refl (m : Maze) : m.SameGround m :=
  ⟨rfl, rfl, rfl, rfl, rfl, rfl, fun _ => rfl⟩

theorem SameGround.symm {m n : Maze} (h : m.SameGround n) : n.SameGround m where
  width := h.width.symm
  length := h.length.symm
  keys := h.keys.symm
  correctKey := h.correctKey.symm
  door := h.door.symm
  exit := h.exit.symm
  cells p := (h.cells p).symm

theorem SameGround.trans {l m n : Maze} (h : l.SameGround m) (h' : m.SameGround n) :
    l.SameGround n where
  width := h'.width.trans h.width
  length := h'.length.trans h.length
  keys := h'.keys.trans h.keys
  correctKey := h'.correctKey.trans h.correctKey
  door := h'.door.trans h.door
  exit := h'.exit.trans h.exit
  cells p := (h'.cells p).trans (h.cells p)

/-- Marks other than the robot are the same on the same ground. -/
theorem SameGround.has {m n : Maze} (h : m.SameGround n) {k : Mark} (hk : k ≠ .robot) (p : Point) :
    (n.cellAt p).has k = (m.cellAt p).has k := by
  have := congrArg (fun c => c.has k) (h.cells p)
  simpa [hk.symm] using this

/-- The same cells are free on the same ground. -/
theorem SameGround.isFree {m n : Maze} (h : m.SameGround n) (p : Point) :
    n.isFree p = m.isFree p := by
  rw [Maze.isFree, Maze.isFree, h.has (by decide)]

/-! ## Accepted actions -/

/-- The maze with the robot on another cell. -/
def standingAt (m : Maze) (p : Point) : Maze :=
  { m with
    grid := (m.grid.remove m.robot.location .robot).place p .robot
    robot := { m.robot with location := p } }

/-- The maze with other flags. -/
def withFlags (m : Maze) (hasKey hasCorrectKey hasOpenedDoor : Bool) : Maze :=
  { m with hasKey := hasKey, hasCorrectKey := hasCorrectKey, hasOpenedDoor := hasOpenedDoor }

theorem moveForward_eq_ok_iff {m n : Maze} :
    m.moveForward = .ok n ↔ m.isFree m.robot.front = true ∧ n = m.standingAt m.robot.front := by
  unfold moveForward frontIsClear standingAt
  by_cases h : m.isFree m.robot.front = true
  · simp [h, eq_comm]
  · simp [h]

theorem pickKey_eq_ok_iff {m n : Maze} :
    m.pickKey = .ok n ↔ m.onKey = true ∧
      n = m.withFlags true (m.hasCorrectKey || decide (m.robot.location = m.correctKey))
        m.hasOpenedDoor := by
  unfold pickKey withFlags
  by_cases h : m.onKey = true
  · simp [h, eq_comm]
  · simp [h]

/-- The way out opens on the exit, and on the door for a robot that carries the right key. -/
theorem openDoor_eq_ok_iff {m n : Maze} :
    m.openDoor = .ok n ↔
      (m.atExit = true ∨ m.atDoor = true ∧ m.hasKey = true ∧
        (m.hasSeveralKeys = true → m.hasCorrectKey = true)) ∧
        n = m.withFlags m.hasKey m.hasCorrectKey true := by
  unfold openDoor withFlags
  cases m.atExit <;> cases m.atDoor <;> cases m.hasKey <;> cases m.hasSeveralKeys <;>
    cases m.hasCorrectKey <;> simp [eq_comm]

/-- All that an accepted action can do: move the robot to the free cell before it, turn it, or
change what it carries and has opened. -/
theorem perform_cases {m n : Maze} {a : Action} (h : m.perform a = .ok n) :
    (a = .moveForward ∧ m.isFree m.robot.front = true ∧ n = m.standingAt m.robot.front) ∨
      (a = .turnLeft ∧ n = m.turn Heading.left) ∨ (a = .turnRight ∧ n = m.turn Heading.right) ∨
        (a = .pickKey ∧ m.onKey = true ∧
          n = m.withFlags true (m.hasCorrectKey || decide (m.robot.location = m.correctKey))
            m.hasOpenedDoor) ∨
          (a = .openDoor ∧ n = m.withFlags m.hasKey m.hasCorrectKey true) ∨
            (a = .throwAwayKey ∧ n = m.withFlags false false m.hasOpenedDoor) := by
  cases a with
  | moveForward => exact .inl ⟨rfl, moveForward_eq_ok_iff.1 h⟩
  | turnLeft =>
    cases h
    exact .inr (.inl ⟨rfl, rfl⟩)
  | turnRight =>
    cases h
    exact .inr (.inr (.inl ⟨rfl, rfl⟩))
  | pickKey => exact .inr (.inr (.inr (.inl ⟨rfl, pickKey_eq_ok_iff.1 h⟩)))
  | openDoor => exact .inr (.inr (.inr (.inr (.inl ⟨rfl, (openDoor_eq_ok_iff.1 h).2⟩))))
  | throwAwayKey =>
    cases h
    exact .inr (.inr (.inr (.inr (.inr ⟨rfl, rfl⟩))))

/-! ## Steps keep mazes well-formed -/

/-- The cells after the robot has moved: its mark left one free cell for another. -/
theorem WellFormed.cellAt_standingAt {m : Maze} (h : m.WellFormed) {p : Point}
    (hp : m.isFree p = true) (q : Point) :
    (m.standingAt p).cellAt q
      = if q = p then ((m.cellAt q).erase .robot).insert .robot else (m.cellAt q).erase .robot := by
  have herase : ∀ q, (m.grid.remove m.robot.location .robot).cellAt q
      = (m.cellAt q).erase .robot := by
    intro q
    rw [Grid.remove, Grid.cellAt_modify h.robot_free]
    split
    · rfl
    · rename_i hq
      have hrobot : (m.cellAt q).has .robot = false :=
        Bool.eq_false_iff.2 fun hm => hq ((h.robot_iff q).1 hm)
      exact (Cell.erase_of_not_has hrobot).symm
  have hfree : ((m.grid.remove m.robot.location .robot).cellAt p).has .wall = false := by
    rw [herase]
    simpa [isFree] using hp
  rw [Maze.cellAt, standingAt, Grid.place, Grid.cellAt_modify hfree, herase]

/-- A move to a free cell keeps a maze well-formed. -/
theorem WellFormed.standingAt {m : Maze} (h : m.WellFormed) {p : Point} (hp : m.isFree p = true) :
    (m.standingAt p).WellFormed := by
  have hcell := h.cellAt_standingAt hp
  have hhas : ∀ q k, k ≠ Mark.robot → ((m.standingAt p).cellAt q).has k = (m.cellAt q).has k := by
    intro q k hk
    rw [hcell]
    split <;> simp [hk.symm]
  refine ⟨(h.size.modify _ _).modify _ _, ?_, ?_, h.inside hp, ?_, h.facing, ?_, ?_, ?_,
    h.correctKey_mem, h.hasKey_of_hasCorrectKey⟩
  · intro q hq
    rw [hhas q .wall (by decide)]
    exact h.ring q hq
  · intro q
    rw [hcell]
    by_cases hq : q = p
    · simp [hq, Maze.standingAt]
    · simp [hq, Maze.standingAt]
  · rw [hhas _ .wall (by decide)]
    show (m.cellAt p).has .wall = false
    simpa [isFree] using hp
  · intro q
    rw [hhas q .key (by decide)]
    exact h.key_iff q
  · intro q
    rw [hhas q .door (by decide)]
    exact h.door_iff q
  · intro q
    rw [hhas q .exit (by decide)]
    exact h.exit_iff q

/-- A turn keeps a maze well-formed. -/
theorem WellFormed.turn {m : Maze} (h : m.WellFormed) (f : Heading → Heading) :
    (m.turn f).WellFormed := by
  have hfacing : (m.turn f).robot.facing ∈ Heading.all := by
    cases (m.turn f).robot.facing <;> decide
  exact { h with facing := hfacing }

/-- Flags may change as long as the correct key is a key. -/
theorem WellFormed.withFlags {m : Maze} (h : m.WellFormed) {hasKey hasCorrectKey : Bool}
    (hk : hasCorrectKey = true → hasKey = true) (hasOpenedDoor : Bool) :
    (m.withFlags hasKey hasCorrectKey hasOpenedDoor).WellFormed :=
  { h with hasKey_of_hasCorrectKey := hk }

/-- An accepted action keeps a maze well-formed, on the same ground. -/
theorem WellFormed.perform {m n : Maze} {a : Action} (h : m.WellFormed) (hn : m.perform a = .ok n) :
    n.WellFormed ∧ m.SameGround n := by
  rcases perform_cases hn with ⟨-, hfree, rfl⟩ | ⟨-, rfl⟩ | ⟨-, rfl⟩ | ⟨-, -, rfl⟩ | ⟨-, rfl⟩ |
    ⟨-, rfl⟩
  · refine ⟨h.standingAt hfree, rfl, rfl, rfl, rfl, rfl, rfl, ?_⟩
    intro q
    rw [h.cellAt_standingAt hfree]
    split <;> simp
  · exact ⟨h.turn _, rfl, rfl, rfl, rfl, rfl, rfl, fun _ => rfl⟩
  · exact ⟨h.turn _, rfl, rfl, rfl, rfl, rfl, rfl, fun _ => rfl⟩
  · exact ⟨h.withFlags (fun _ => rfl) _, rfl, rfl, rfl, rfl, rfl, rfl, fun _ => rfl⟩
  · exact ⟨h.withFlags h.hasKey_of_hasCorrectKey _, rfl, rfl, rfl, rfl, rfl, rfl, fun _ => rfl⟩
  · exact ⟨h.withFlags (fun hc => hc) _, rfl, rfl, rfl, rfl, rfl, rfl, fun _ => rfl⟩

/-- An attempt keeps a maze well-formed, on the same ground. -/
theorem WellFormed.attempt {m : Maze} (h : m.WellFormed) (a : Action) :
    (m.attempt a).WellFormed ∧ m.SameGround (m.attempt a) := by
  unfold Maze.attempt
  cases hn : m.perform a with
  | ok n => exact h.perform hn
  | error _ => exact ⟨h, .refl m⟩

/-! ## Runs of attempts -/

/-- The maze after attempts at actions, one after another. -/
def after (m : Maze) (actions : List Action) : Maze := actions.foldl attempt m

@[simp] theorem after_nil (m : Maze) : m.after [] = m := rfl

@[simp] theorem after_cons (m : Maze) (a : Action) (rest : List Action) :
    m.after (a :: rest) = (m.attempt a).after rest := rfl

theorem after_append (m : Maze) (first second : List Action) :
    m.after (first ++ second) = (m.after first).after second := List.foldl_append

/-- Attempts keep a maze well-formed, on the same ground. -/
theorem WellFormed.after {m : Maze} (h : m.WellFormed) (actions : List Action) :
    (m.after actions).WellFormed ∧ m.SameGround (m.after actions) := by
  induction actions generalizing m with
  | nil => exact ⟨h, .refl m⟩
  | cons a rest ih =>
    obtain ⟨hwf, hground⟩ := h.attempt a
    obtain ⟨hwf', hground'⟩ := ih hwf
    exact ⟨hwf', hground.trans hground'⟩

/-- **The representation invariant.**  After any attempts at actions, a maze is still well-formed
and differs from the built one only in the robot and in what it carries and has opened. -/
theorem Built.after_wellFormed {m : Maze} (h : m.Built) (actions : List Action) :
    (m.after actions).WellFormed ∧ m.SameGround (m.after actions) :=
  h.wellFormed.after actions

/-- A corridor with two keys, of which the one behind the door is the correct one. -/
def twoKeys : List Text := ["*******", "*RKDKE*", "*******"]

/-- In the corridor the robot picks the wrong key, runs into the wall and stops at the door. -/
theorem twoKeys_after_wellFormed :
    ∃ m, ofRows twoKeys 3 (some ⟨4, 1⟩) = .ok m ∧
      (m.after [.moveForward, .pickKey, .turnLeft, .moveForward, .turnRight, .moveForward,
        .openDoor]).WellFormed ∧
      m.SameGround (m.after [.moveForward, .pickKey, .turnLeft, .moveForward, .turnRight,
        .moveForward, .openDoor]) := by
  have h : ofRows twoKeys 3 (some ⟨4, 1⟩)
      = .ok (ofDrawing twoKeys ⟨1, 1⟩ ⟨3, 1⟩ ⟨5, 1⟩ ⟨4, 1⟩ .east) := rfl
  exact ⟨_, h, Built.after_wellFormed (.rows h) _⟩

end RobotMaze.Maze

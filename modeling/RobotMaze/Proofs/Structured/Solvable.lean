import RobotMaze.Proofs.Maze.Motion
import RobotMaze.Proofs.Structured.Agreement

/-!
# Every built maze can be solved

The checks of a built maze walk from the robot to the correct key, to the door and to the exit.
Walks can be taken back, so the robot can go to the key, pick it, go back and on to the door, and
open it.  As a program these actions are one line each, with no branch and no loop.

* `Maze.Built.solution` — actions that are all accepted and open the door;
* `ranging_acting` — the lines of accepted actions are executed one after another;
* `Maze.Built.solved_by_script` — a program that solves the maze without a warning.
-/

namespace RobotMaze

/-! ## Actions that solve a maze -/

namespace Maze

/-- On the correct key the robot picks it. -/
theorem WellFormed.picks {m : Maze} (h : m.WellFormed) (hloc : m.robot.location = m.correctKey) :
    ∃ n, m.perform .pickKey = .ok n ∧ n.robot.location = m.robot.location ∧
      n.hasCorrectKey = true ∧ n.WellFormed ∧ m.SameGround n := by
  have honKey : m.onKey = true := by
    rw [onKey, here, hloc]
    exact (h.key_iff _).2 h.correctKey_mem
  have hpick := pickKey_eq_ok_iff.2 ⟨honKey, rfl⟩
  obtain ⟨hwf, hground⟩ := @WellFormed.perform m _ .pickKey h hpick
  refine ⟨_, hpick, rfl, ?_, hwf, hground⟩
  show (m.hasCorrectKey || decide (m.robot.location = m.correctKey)) = true
  rw [hloc, decide_eq_true rfl, Bool.or_true]

/-- At the door the robot opens it with the correct key. -/
theorem WellFormed.opens {m : Maze} (h : m.WellFormed) (hloc : m.robot.location = m.door)
    (hkey : m.hasCorrectKey = true) :
    ∃ n, m.perform .openDoor = .ok n ∧ n.door = m.door ∧ n.robot.location = m.door ∧
      n.hasCorrectKey = true ∧ n.hasOpenedDoor = true := by
  have hatDoor : m.atDoor = true := by
    rw [atDoor, here, hloc]
    exact (h.door_iff _).2 rfl
  have hopen := openDoor_eq_ok_iff.2
    ⟨.inr ⟨hatDoor, h.hasKey_of_hasCorrectKey hkey, fun _ => hkey⟩, rfl⟩
  exact ⟨_, hopen, rfl, hloc, hkey, rfl⟩

/-- **Accepted actions that solve a built maze**: they bring the robot with the correct key to the
door, and the door opens. -/
theorem Built.solution {m : Maze} (h : m.Built) :
    ∃ actions n final, (∀ a ∈ actions, IsMotion a ∨ a = .pickKey) ∧ m.performAll actions = .ok n ∧
      n.perform .openDoor = .ok final ∧ final.door = m.door ∧ final.robot.location = m.door ∧
      final.hasCorrectKey = true ∧ final.hasOpenedDoor = true := by
  have hkey := h.linked m.correctKey (by simp)
  have hdoor := h.linked m.door (by simp)
  obtain ⟨first, m₁, hfirst, hm₁, hloc₁, -, hwf₁, hground₁⟩ := h.wellFormed.walk hkey
  obtain ⟨m₂, hm₂, hloc₂, hkey₂, hwf₂, hground₂⟩ :=
    hwf₁.picks (hloc₁.trans hground₁.correctKey.symm)
  have hground := hground₁.trans hground₂
  -- from the key to the door it is back to the start and on from there
  have hback : m₂.Linked m₂.robot.location m.door := by
    rw [hloc₂, hloc₁]
    exact hground.linked (hkey.symm.trans hdoor)
  obtain ⟨second, m₃, hsecond, hm₃, hloc₃, hflags₃, hwf₃, hground₃⟩ := hwf₂.walk hback
  have hdoor₃ : m₃.door = m.door := (hground.trans hground₃).door
  obtain ⟨final, hfinal, hfinalDoor, hfinalLoc, hfinalKey, hopened⟩ :=
    hwf₃.opens (hloc₃.trans hdoor₃.symm) (hflags₃.2.1.trans hkey₂)
  have hpick : m₁.performAll [.pickKey] = .ok m₂ :=
    performAll_cons_eq_ok_iff.2 ⟨m₂, hm₂, rfl⟩
  refine ⟨first ++ ([.pickKey] ++ second), m₃, final, ?_,
    performAll_append hm₁ (performAll_append hpick hm₃), hfinal, hfinalDoor.trans hdoor₃,
    hfinalLoc.trans hdoor₃, hfinalKey, hopened⟩
  intro a ha
  rcases List.mem_append.1 ha with ha | ha
  · exact .inl (hfirst a ha)
  · rcases List.mem_append.1 ha with ha | ha
    · exact .inr (List.mem_singleton.1 ha)
    · exact .inl (hsecond a ha)

end Maze

/-! ## Lines of actions -/

namespace Structured

variable {p : Program} {c : Config} {last n stop : Int}

/-- Actions one after another. -/
def Code.acting : List Action → Code
  | [] => .done
  | a :: rest => .act a (acting rest)

theorem Code.lines_acting (actions : List Action) :
    (acting actions).lines = actions.map Action.words := by
  induction actions with
  | nil => rfl
  | cons a rest ih => rw [acting, lines, ih, List.map_cons]

theorem World.act_of_accepted {w : World} {a : Action} {m : Maze} (h : w.maze.perform a = .ok m)
    (ha : a ≠ .openDoor) (n : Int) :
    w.act n a = .goesOn ({ w with maze := m }.note (.acted ⟨n, a, none, m⟩)) := by
  rw [act, h]
  exact if_neg ha

theorem World.act_of_opened {w : World} {m : Maze} (h : w.maze.perform .openDoor = .ok m)
    (n : Int) :
    w.act n .openDoor
      = .halts (({ w with maze := m }.note (.acted ⟨n, .openDoor, none, m⟩)).note (.solved n)) := by
  rw [act, h]
  rfl

/-- The line of an action is executed and the next one follows, unless a door opens. -/
theorem ranging_act {a : Action} (hlast : p.last = .ok last) (hn : n < last) (hstop : n < stop)
    (h : p.Reads n (Action.words a)) (steps limit : Nat) (w : World) (line : Int) :
    ranging p c (steps + 1) n stop limit (w.session line)
      = match (w.enter n (Action.words a)).act n a with
        | .goesOn w' => ranging p c steps (n + 1) stop limit (w'.session n)
        | v => v.result .next n := by
  obtain ⟨head, args, hkind, -, hargs, -, hline⟩ := line_reads (c := c) hlast hn h rfl
  cases List.map_eq_nil_iff.1 hargs
  rw [Code.kindOf_action] at hkind
  rw [ranging, Exec.rangeIn, if_pos hstop, bind_apply, hline, statement_act hkind]
  cases (w.enter n (Action.words a)).act n a with
  | goesOn w' => rfl
  | halts w' => rfl
  | fails e w' => rfl

/-- The lines of accepted actions are executed one after another, as long as no door opens. -/
theorem ranging_acting {actions : List Action} (hlast : p.last = .ok last)
    (hlines : p.Holds n (actions.map Action.words)) (hle : n + actions.length ≤ last)
    (hopen : .openDoor ∉ actions) {w : World} {m : Maze} (hm : w.maze.performAll actions = .ok m)
    (line stop : Int) (hstop : n + actions.length ≤ stop) :
    ∃ (w' : World) (line' : Int), w'.maze = m ∧ w'.env = w.env ∧ w'.warnings = w.warnings ∧
      w'.entered = w.entered + actions.length ∧
      ∀ steps limit, ranging p c (actions.length + steps) n stop limit (w.session line)
        = ranging p c steps (n + actions.length) stop limit (w'.session line') := by
  induction actions generalizing n w line with
  | nil =>
    cases hm
    exact ⟨w, line, rfl, rfl, rfl, rfl, by simp⟩
  | cons a rest ih =>
    obtain ⟨hread, hlines⟩ := hlines
    obtain ⟨m', hm', hrest⟩ := Maze.performAll_cons_eq_ok_iff.1 hm
    rw [List.mem_cons, not_or] at hopen
    rw [List.length_cons] at hle hstop
    have hact := @World.act_of_accepted (w.enter n (Action.words a)) a m' hm' (Ne.symm hopen.1) n
    obtain ⟨w', line', hmaze, henv, hwarnings, hentered, hrun⟩ := ih hlines (by omega) hopen.2
      (w := { w.enter n (Action.words a) with maze := m' }.note (.acted ⟨n, a, none, m'⟩))
      hrest n (by omega)
    refine ⟨w', line', hmaze, henv, hwarnings, ?_, fun steps limit => ?_⟩
    · rw [hentered]
      simp only [World.note, World.enter, List.length_cons]
      omega
    · rw [List.length_cons, Nat.add_right_comm,
        ranging_act hlast (by omega) (by omega) hread, hact]
      simp only [hrun]
      rw [show n + 1 + (rest.length : Int) = n + ((rest.length + 1 : Nat) : Int) from by omega]

end Structured

/-! ## Solving programs -/

/-- A program of actions, one on each line. -/
def script (actions : List Action) : Text :=
  Text.join [Text.lineFeed]
    (utf8 "LOAD 1" :: (actions.map (fun a => utf8 a.word) ++ [utf8 "END"]))

open Structured

theorem script_eq_source (actions : List Action) :
    script actions = (Code.acting actions).source .one := by
  rw [script, Code.source, Code.program, Code.lines_acting, List.map_cons, List.map_append,
    List.map_map]
  rfl

/-- A program of accepted actions, of which the last one opens the door. -/
theorem run_script {actions : List Action} {m n final : Maze} (hopen : .openDoor ∉ actions)
    (hn : m.performAll actions = .ok n) (hfinal : n.perform .openDoor = .ok final) {c : Config}
    (hm : c.loader .one = .ok m) (limit : Nat) :
    (Run.run c limit (script (actions ++ [.openDoor]))).result
      = .ok { halted := true, solved := true, maze := some final, env := {}, warnings := [],
              executed := actions.length + 2 } := by
  rw [script_eq_source]
  obtain ⟨-, hlines, -⟩ := (Code.acting (actions ++ [.openDoor])).holds_source .one
  have hlast := (Code.acting (actions ++ [.openDoor])).last_source .one
  have hheight : (Code.acting (actions ++ [.openDoor])).height = actions.length + 1 := by
    rw [Code.height, Code.lines_acting, List.length_map, List.length_append]
    rfl
  rw [Code.lines_acting, List.map_append, Program.holds_append, List.length_map] at hlines
  obtain ⟨hacting, hdoor, -⟩ := hlines
  rw [hheight] at hlast
  obtain ⟨w, line, hmaze, henv, hwarnings, hentered, hrun⟩ := ranging_acting (c := c) hlast hacting
    (by omega) hopen (w := World.loaded .one m) hn 1 (2 + (actions.length + 1 : Nat) + 1) (by omega)
  -- the last action is on the last line before `END`, which is not reached
  rw [← hmaze] at hfinal
  have hact := @World.act_of_opened (w.enter (2 + actions.length) (Action.words .openDoor)) final
    hfinal (2 + actions.length)
  have hprogram := program_apply (Code.acting (actions ++ [.openDoor])) .one hm limit
  rw [hheight, show actions.length + 1 + 3 = actions.length + (3 + 1) from by omega, hrun,
    ranging_act hlast (by omega) (by omega) hdoor, hact] at hprogram
  rw [(shownBy_of_result hprogram).1]
  simp only [Verdict.summary, World.summary, World.note, World.enter]
  rw [isSolved_of_openDoor hfinal, henv, hwarnings, hentered]
  simp [World.loaded]

/-- **Every built maze can be solved by a program** that consists of moves, turns, picking keys and
opening the door: its run gives no warning and ends with the door opened by the correct key. -/
theorem Maze.Built.solved_by_script {m : Maze} (h : m.Built) :
    ∃ actions : List Action,
      (∀ a ∈ actions, a ∈ [.moveForward, .turnLeft, .turnRight, .pickKey, .openDoor]) ∧
        ∀ (c : Config) (limit : Nat), c.loader .one = .ok m →
          ∃ n, (Run.run c limit (script actions)).result
              = .ok { halted := true, solved := true, maze := some n, env := {}, warnings := [],
                      executed := actions.length + 1 } ∧
            n.door = m.door ∧ n.robot.location = n.door ∧ n.hasCorrectKey = true ∧
            n.hasOpenedDoor = true := by
  obtain ⟨actions, n, final, hactions, hn, hfinal, hdoor, hloc, hkey, hopened⟩ := h.solution
  have hno : .openDoor ∉ actions := by
    intro ha
    rcases hactions _ ha with (h | h | h) | h <;> cases h
  refine ⟨actions ++ [.openDoor], ?_, fun c limit hm => ⟨final, ?_, hdoor, ?_, hkey, hopened⟩⟩
  · intro a ha
    rcases List.mem_append.1 ha with ha | ha
    · rcases hactions a ha with (rfl | rfl | rfl) | rfl <;> decide
    · rw [List.mem_singleton.1 ha]
      decide
  · rw [run_script hno hn hfinal hm, List.length_append]
    rfl
  · rw [hloc, hdoor]

/-- The corridor of `Maze.twoKeys`, where the correct key is behind the door. -/
theorem Maze.twoKeys_solved_by_script :
    ∃ m, Maze.ofRows Maze.twoKeys 3 (some ⟨4, 1⟩) = .ok m ∧ ∃ actions : List Action,
      (∀ a ∈ actions, a ∈ [.moveForward, .turnLeft, .turnRight, .pickKey, .openDoor]) ∧
        ∃ n, (Run.run { loader := fun _ => .ok m } 0 (script actions)).result
            = .ok { halted := true, solved := true, maze := some n, env := {}, warnings := [],
                    executed := actions.length + 1 } ∧
          n.door = ⟨3, 1⟩ ∧ n.robot.location = n.door ∧ n.hasCorrectKey = true ∧
          n.hasOpenedDoor = true := by
  have h : Maze.ofRows Maze.twoKeys 3 (some ⟨4, 1⟩)
      = .ok (Maze.ofDrawing Maze.twoKeys ⟨1, 1⟩ ⟨3, 1⟩ ⟨5, 1⟩ ⟨4, 1⟩ .east) := rfl
  obtain ⟨actions, hactions, hrun⟩ := Maze.Built.solved_by_script (.rows h)
  exact ⟨_, h, actions, hactions, hrun { loader := fun _ => .ok _ } 0 rfl⟩

end RobotMaze

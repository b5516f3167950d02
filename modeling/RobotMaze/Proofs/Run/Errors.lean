import RobotMaze.Proofs.Maze.Bounds
import RobotMaze.Proofs.Program.Columns
import RobotMaze.Proofs.Run.Replay

/-!
# Errors of runs

A run that does not finish has an error to report, at a place of its source.  What the source, the
words of a line and the grid are asked for is always there, and the errors that only guard against
wrong calls are never reported.

* `Run.Course.ending` — how a run can end;
* `Run.guards_unreachable` — no run leaves its program or its grid, and no guard is ever needed;
* `Run.errors_stand_at_words` — an error stands on a line of the source, at the start of a word.
-/

namespace RobotMaze

/-! ## Faults that are not guarded against -/

namespace Fault

variable {fault : Fault}

theorem ne_of_not_isGuard (h : fault.isGuard = false) :
    fault ≠ .invalidTerm ∧
      ∀ kind, fault ≠ .notSensor kind ∧ fault ≠ .notAction kind ∧ fault ≠ .noMaze kind := by
  cases fault <;> simp_all [isGuard]

/-- What can go wrong in the execution of a program. -/
theorem execution_cases (h : fault.isGuard = false) (horigin : fault.origin = .execution) :
    (∃ word, fault = .invalidPreset word) ∨
      (∃ preset reason, fault = .loadFailed preset reason) ∨
        (∃ name, fault = .undeclared name) ∨ ∃ cap, fault = .loopExceeded cap := by
  cases fault with
  | invalidPreset word => exact .inl ⟨word, rfl⟩
  | loadFailed preset reason => exact .inr (.inl ⟨preset, reason, rfl⟩)
  | undeclared name => exact .inr (.inr (.inl ⟨name, rfl⟩))
  | loopExceeded cap => exact .inr (.inr (.inr ⟨cap, rfl⟩))
  | noMaze kind => cases h
  | _ => cases horigin

end Fault

namespace Run

open Exec

variable {p : Program} {c : Config} {o : Outcome}

/-- A run finishes, is granted too few rounds, reports an error in its program, or has a loader that
asks for too much. -/
theorem Course.ending (h : Course p c o) :
    o.ending = .ok .halt ∨ o.ending = .error .unfinished ∨
      (∃ e, o.ending = .error (.failed e) ∧ p.Reports e) ∨
        o.ending = .error .outOfRange ∧ ∃ k, c.loader k = .error .tooLarge := by
  cases h with
  | refused he _ =>
    rcases he with ⟨e, rfl, -, hreports⟩ | ⟨rfl, hlarge⟩
    · exact .inr (.inr (.inl ⟨e, rfl, hreports⟩))
    · exact .inr (.inr (.inr ⟨rfl, hlarge⟩))
  | stopped _ _ hstops =>
    rcases hstops.reason with rfl | ⟨e, rfl, hreports⟩
    · exact .inr (.inl rfl)
    · exact .inr (.inr (.inl ⟨e, rfl, hreports⟩))
  | finished _ _ _ _ _ => exact .inl rfl

/-- A run that fails reports an error in its program. -/
theorem Course.reports {e : Error} (h : Course p c o) (he : o.ending = .error (.failed e)) :
    p.Reports e := by
  rcases h.ending with hok | hun | ⟨e', he', hreports⟩ | ⟨hout, -⟩
  · cases hok.symm.trans he
  · cases hun.symm.trans he
  · cases he'.symm.trans he
    exact hreports
  · cases hout.symm.trans he

/-! ## What is never reported -/

/-- **No run leaves its program or its grid, and no guard is ever needed.**  Let the loader return
built mazes, under any names, or errors.  Then neither the search for the last line nor the run asks
for a line or a word that is not there: the run finishes, is interrupted, or fails with an error.
The error is none of the guards; in the execution it is a wrong preset, a failure of the loader, a
variable without value, or a loop that exceeds its cap.  And if the run has loaded a maze, then its
actions can be carried out there on a grid that has no other cells than its own, and lead to the
maze that the run has left. -/
theorem guards_unreachable
    (hmazes : ∀ k m, c.loader k = .ok m →
      ∃ (b : Maze) (name : Text), b.Built ∧ m = { b with name := name })
    (hloader : ∀ k, c.loader k ≠ .error .tooLarge) (limit : Nat) (src : Text) :
    (Program.ofSource src).last ≠ .error .outOfRange ∧
    ((run c limit src).ending = .ok .halt ∨ (run c limit src).ending = .error .unfinished ∨
      ∃ e, (run c limit src).ending = .error (.failed e) ∧
        (e.fault ≠ .invalidTerm ∧ ∀ kind,
          e.fault ≠ .notSensor kind ∧ e.fault ≠ .notAction kind ∧ e.fault ≠ .noMaze kind) ∧
        (e.fault.origin = .execution →
          (∃ word, e.fault = .invalidPreset word) ∨
            (∃ preset reason, e.fault = .loadFailed preset reason) ∨
              (∃ name, e.fault = .undeclared name) ∨ ∃ cap, e.fault = .loopExceeded cap)) ∧
    ((run c limit src).session.maze = none ∧ (run c limit src).events = [] ∨
      ∃ k m, (Program.ofSource src).Opens k ∧ c.loader k = .ok m ∧
        m.after? ((run c limit src).events.map Event.action)
          = some (m.after ((run c limit src).events.map Event.action)) ∧
        (run c limit src).session.maze
          = some (m.after ((run c limit src).events.map Event.action))) := by
  have hcourse := course_run c limit src
  refine ⟨?_, ?_, ?_⟩
  · intro hlast
    obtain ⟨e, he, -⟩ := Program.last_eq_error hlast
    cases he
  · rcases hcourse.ending with hok | hun | ⟨e, he, hreports⟩ | ⟨-, k, hk⟩
    · exact .inl hok
    · exact .inr (.inl hun)
    · exact .inr (.inr ⟨e, he, Fault.ne_of_not_isGuard hreports.real,
        Fault.execution_cases hreports.real⟩)
    · exact absurd hk (hloader k)
  · rcases hcourse.observed with ⟨hmaze, hevents, -⟩ | ⟨k, m, hopens, hm, hobserved⟩
    · exact .inl ⟨hmaze, hevents⟩
    · obtain ⟨now, hnow, hreplays⟩ := hobserved.maze
      obtain rfl := hreplays.after_eq
      obtain ⟨b, name, hbuilt, rfl⟩ := hmazes k m hm
      have hwellFormed : ({ b with name := name } : Maze).WellFormed := { hbuilt.wellFormed with }
      exact .inr ⟨k, _, hopens, hm, hwellFormed.after?_eq _, hnow⟩

/-- Runs into the wall of the corridor and then asks for a variable that nothing has set. -/
def bumping : Text :=
  utf8 "LOAD 2\nMOVE_FORWARD\nTURN_LEFT\nMOVE_FORWARD\nIF found\nEND\nEND"

/-- In the corridor the robot stays within its grid until the variable is missing. -/
theorem bumping_guards_unreachable :
    (∀ k, Structured.corridor.loader k ≠ .error .tooLarge) ∧
      (run Structured.corridor 1 bumping).ending
        = .error (.failed ⟨.undeclared "found", 5, 0⟩) ∧
      (Program.ofSource bumping).last ≠ .error .outOfRange ∧
      ∃ k m, (Program.ofSource bumping).Opens k ∧ Structured.corridor.loader k = .ok m ∧
        m.after? [.moveForward, .turnLeft, .moveForward]
          = some (m.after [.moveForward, .turnLeft, .moveForward]) ∧
        (run Structured.corridor 1 bumping).session.maze
          = some (m.after [.moveForward, .turnLeft, .moveForward]) := by
  have hrows : Maze.ofRows Maze.twoKeys 3 (some ⟨4, 1⟩)
      = .ok (.ofDrawing Maze.twoKeys ⟨1, 1⟩ ⟨3, 1⟩ ⟨5, 1⟩ ⟨4, 1⟩ .east) := rfl
  have hmazes : ∀ k m, Structured.corridor.loader k = .ok m →
      ∃ (b : Maze) (name : Text), b.Built ∧ m = { b with name := name } := by
    rintro k m hm
    cases hm
    exact ⟨_, [], .rows hrows, rfl⟩
  have hloader : ∀ k, Structured.corridor.loader k ≠ .error .tooLarge := fun _ hk => by cases hk
  have hending : (run Structured.corridor 1 bumping).ending
      = .error (.failed ⟨.undeclared "found", 5, 0⟩) := by decide +kernel
  have hevents : (run Structured.corridor 1 bumping).events.map Event.action
      = [.moveForward, .turnLeft, .moveForward] := by decide +kernel
  obtain ⟨hlast, -, hgrid⟩ := guards_unreachable hmazes hloader 1 bumping
  refine ⟨hloader, hending, hlast, ?_⟩
  rw [hevents] at hgrid
  rcases hgrid with ⟨-, hnone⟩ | hafter
  · rw [hnone] at hevents
    cases hevents
  · exact hafter

/-! ## Where errors stand -/

/-- **An error stands on a line of the source, and at a word if it has a column.**  The column is
that of the first byte of a word before the comment of the line, and everything before it is ASCII,
so that it counts bytes and characters alike. -/
theorem errors_stand_at_words {limit : Nat} {src : Text} {e : Error}
    (h : (run c limit src).ending = .error (.failed e)) :
    1 ≤ e.line ∧ e.line ≤ (Program.ofSource src).size ∧
      (e.column = 0 ∨ ∃ line, (Program.ofSource src).line? e.line = some line ∧
        Line.StartsWord line e.column) := by
  have hreports := (course_run c limit src).reports h
  exact ⟨hreports.low, hreports.up, hreports.startsWord⟩

/-- An action with a word too many, behind which more than ASCII stands in a comment. -/
def crowded : Text := utf8 "LOAD 1\n\tMOVE_FORWARD now @ größer\nEND"

/-- The word too many starts at the fifteenth byte. -/
theorem crowded_errors_stand_at_words :
    (run Structured.corridor 1 crowded).ending
        = .error (.failed ⟨.actionArguments .moveForward, 2, 15⟩) ∧
      ∃ line, (Program.ofSource crowded).line? 2 = some line ∧ Line.StartsWord line 15 := by
  have hending : (run Structured.corridor 1 crowded).ending
      = .error (.failed ⟨.actionArguments .moveForward, 2, 15⟩) := by decide +kernel
  obtain ⟨-, -, hcolumn⟩ := errors_stand_at_words hending
  exact ⟨hending, hcolumn.resolve_left (by decide)⟩

end Run

end RobotMaze

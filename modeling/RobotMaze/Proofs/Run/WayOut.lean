import RobotMaze.Proofs.Maze.History
import RobotMaze.Proofs.Run.Errors
import RobotMaze.Proofs.Run.Order

/-!
# Runs and the way out

A run ends as soon as the robot opens the way out, however deep in branches and loops it stands.
Until then the way out is closed in every maze that the journal shows, and the journal shows every
maze of the run: whatever a session knows about its lines, its variables and its maze can be read
off its journal.

* `Session.Told` — the journal tells the state of the session, which every move keeps;
* `Session.Closed` — the way out was not opened yet, which every move keeps as well;
* `Run.opening_ends_run` — what a run does when it opens the way out, and when it does not.
-/

namespace RobotMaze

open Step

/-! ## What a journal tells -/

namespace Entry

/-- The maze that an entry shows. -/
def maze? : Entry → Option Maze
  | loaded _ _ m => some m
  | acted event => some event.maze
  | _ => none

/-- The variables after an entry. -/
def set (env : Env) : Entry → Env
  | assigned _ name value => env.set name value
  | _ => env

end Entry

namespace Journal

/-- The mazes that are shown by entries. -/
def mazes (entries : List Entry) : List Maze := entries.filterMap Entry.maze?

/-- The variables that are set by entries. -/
def env (entries : List Entry) : Env := entries.foldl Entry.set {}

end Journal

/-- The robot has opened the way out. -/
def Event.Opens (e : Event) : Prop := e.action = .openDoor ∧ e.rejection = none

instance (e : Event) : Decidable e.Opens := inferInstanceAs (Decidable (_ ∧ _))

namespace Session

variable {s t : Session} {e : Entry}

/-- The mazes that were seen in a session. -/
def mazes (s : Session) : List Maze := Journal.mazes s.journal.toList

theorem mazes_push (hjournal : t.journal = s.journal.push e) :
    t.mazes = s.mazes ++ e.maze?.toList := by
  rw [mazes, mazes, Journal.mazes, hjournal, Array.toList_push, List.filterMap_append]
  cases h : e.maze? <;> simp [Journal.mazes, h]

/-- The journal tells how many lines were executed, what the variables are, and what the maze is. -/
structure Told (s : Session) : Prop where
  executed : s.executed = s.trail.length
  env : s.env = Journal.env s.journal.toList
  maze : s.maze = s.mazes.getLast?

theorem Told.push (h : s.Told) (hjournal : t.journal = s.journal.push e)
    (hexecuted : t.executed = s.executed + e.line?.toList.length) (henv : t.env = e.set s.env)
    (hmaze : t.maze = e.maze?.or s.maze) : t.Told where
  executed := by
    have htrail : t.trail = s.trail ++ e.line?.toList := by
      rw [trail, trail, Journal.lines, hjournal, Array.toList_push, List.filterMap_append]
      cases h : e.line? <;> simp [Journal.lines, h]
    rw [hexecuted, h.executed, htrail, List.length_append]
  env := by
    rw [henv, h.env, hjournal, Array.toList_push, Journal.env, Journal.env, List.foldl_append]
    rfl
  maze := by
    rw [hmaze, h.maze, mazes_push hjournal, List.getLast?_append]
    cases e.maze? <;> rfl

theorem told_empty : ({} : Session).Told := ⟨rfl, rfl, rfl⟩

theorem told_entered (h : s.Told) (n : Int) (words : Text) : (s.entered n words).Told :=
  h.push rfl rfl rfl rfl

theorem told_opening (n : Int) (words : Text) (k : PresetNumber) (m : Maze) :
    (opening n words k m).Told := (told_entered told_empty n words).push rfl rfl rfl rfl

theorem Told.attempted (h : s.Told) {m : Maze} (hm : s.maze = some m) (a : Action) :
    (s.attempted m a).Told := by
  unfold Session.attempted
  cases m.perform a with
  | ok after => exact h.push rfl rfl rfl rfl
  | error reason => exact h.push rfl rfl rfl hm

/-! ## The way out is closed -/

/-- The robot has not opened the way out, which is closed in all mazes that were seen. -/
structure Closed (s : Session) : Prop where
  events : ∀ e ∈ s.events, ¬ e.Opens
  mazes : ∀ m ∈ s.mazes, m.hasOpenedDoor = false

theorem Closed.push (h : s.Closed) (hjournal : t.journal = s.journal.push e)
    (hevent : ∀ f, e.event? = some f → ¬ f.Opens)
    (hmaze : ∀ m, e.maze? = some m → m.hasOpenedDoor = false) : t.Closed where
  events := by
    have hevents : t.events = s.events ++ e.event?.toList := by
      rw [Session.events, Session.events, Journal.events, hjournal, Array.toList_push,
        List.filterMap_append]
      cases h : e.event? <;> simp [Journal.events, h]
    intro f hf
    rw [hevents, List.mem_append, Option.mem_toList] at hf
    exact hf.elim (h.events f) (hevent f)
  mazes := by
    intro m hm
    rw [mazes_push hjournal, List.mem_append, Option.mem_toList] at hm
    exact hm.elim (h.mazes m) (hmaze m)

theorem Closed.push_of_none (h : s.Closed) (hjournal : t.journal = s.journal.push e)
    (hevent : e.event? = none) (hmaze : e.maze? = none) : t.Closed := by
  refine h.push hjournal ?_ ?_
  · intro f hf
    rw [hevent] at hf
    cases hf
  · intro m hm
    rw [hmaze] at hm
    cases hm

theorem Closed.of_same (h : s.Closed) (hjournal : t.journal = s.journal) : t.Closed := by
  refine ⟨?_, ?_⟩
  · rw [Session.events, hjournal]
    exact h.events
  · rw [Session.mazes, hjournal]
    exact h.mazes

/-- The robot has opened the way out, and nothing else was done since `s`. -/
def WentOut (s t : Session) : Prop :=
  ∃ e : Event, e.Opens ∧
    t.journal.toList = s.journal.toList ++ [.acted e, .solved e.line] ∧
    ∃ m, t.maze = some m ∧ m.hasOpenedDoor = true

/-- The maze of a session is one of those that were seen. -/
theorem Closed.maze (h : s.Closed) (htold : s.Told) {m : Maze} (hm : s.maze = some m) :
    m.hasOpenedDoor = false :=
  h.mazes m (List.mem_of_getLast? (htold.maze.symm.trans hm))

end Session

/-- An accepted action that does not open the way out leaves it as it is. -/
theorem Maze.hasOpenedDoor_of_perform {m after : Maze} {a : Action} (h : m.perform a = .ok after)
    (ha : a ≠ .openDoor) : after.hasOpenedDoor = m.hasOpenedDoor := by
  rcases perform_cases h with ⟨-, -, rfl⟩ | ⟨-, rfl⟩ | ⟨-, rfl⟩ | ⟨-, -, rfl⟩ | ⟨rfl, -⟩ | ⟨-, rfl⟩
  · rfl
  · rfl
  · rfl
  · rfl
  · exact absurd rfl ha
  · rfl

/-- What opens the way out is to open the door, and it is accepted. -/
theorem Maze.opensBy_eq_true_iff {m : Maze} {a : Action} :
    m.opensBy a = true ↔ a = .openDoor ∧ ∃ after, m.perform a = .ok after := by
  unfold opensBy
  cases hperform : m.perform a with
  | error reason => simp
  | ok after =>
    constructor
    · intro h
      rw [Bool.and_eq_true, beq_iff_eq] at h
      exact ⟨h.1, after, rfl⟩
    · rintro ⟨rfl, -⟩
      exact Structured.isSolved_of_openDoor hperform

theorem Session.Closed.attempted {s : Session} (h : s.Closed) {m : Maze}
    (hclosed : m.hasOpenedDoor = false) {a : Action} (hopens : m.opensBy a = false) :
    (s.attempted m a).Closed := by
  unfold Session.attempted
  cases hperform : m.perform a with
  | ok after =>
    have ha : a ≠ .openDoor := fun ha =>
      Bool.eq_false_iff.1 hopens (Maze.opensBy_eq_true_iff.2 ⟨ha, after, hperform⟩)
    refine h.push rfl ?_ ?_
    · rintro f hf ⟨haction, -⟩
      cases hf
      exact ha haction
    · intro after' hafter
      cases hafter
      exact (Maze.hasOpenedDoor_of_perform hperform ha).trans hclosed
  | error reason =>
    refine h.push rfl ?_ ?_
    · rintro f hf ⟨-, hrejection⟩
      cases hf
      cases hrejection
    · intro m' hm'
      cases hm'
      exact hclosed

/-! ## Moves -/

namespace Exec

variable {p : Program} {s t : Session}

theorem Move.told (h : Move p s t) (hs : s.Told) : t.Told := by
  cases h with
  | enter _ => exact hs.push rfl rfl rfl rfl
  | settle _ => exact ⟨hs.executed, hs.env, hs.maze⟩
  | attempt _ _ hm _ => exact hs.attempted hm _
  | assign _ _ _ => exact hs.push rfl rfl rfl rfl

theorem Finish.told (h : Finish p s t) (hs : s.Told) : t.Told := by
  cases h with
  | last _ _ => exact hs.push rfl rfl rfl rfl
  | opened _ _ hm _ _ => exact (hs.attempted hm _).push rfl rfl rfl rfl

/-- A move does not open the way out. -/
theorem Move.closed (h : Move p s t) (hs : s.Told ∧ s.Closed) : t.Told ∧ t.Closed := by
  obtain ⟨htold, hclosed⟩ := hs
  refine ⟨h.told htold, ?_⟩
  cases h with
  | enter _ => exact hclosed.push_of_none rfl rfl rfl
  | settle _ => exact hclosed.of_same rfl
  | attempt _ _ hm hopens => exact hclosed.attempted (hclosed.maze htold hm) hopens
  | assign _ _ _ => exact hclosed.push_of_none rfl rfl rfl

/-- On the way nothing is opened. -/
theorem Journey.closed (h : Journey p s t) (hs : s.Told ∧ s.Closed) : t.Told ∧ t.Closed :=
  h.keeps Move.closed hs

/-- A run that finishes has opened the way out just now, or leaves it closed. -/
theorem Finish.wayOut (h : Finish p s t) (hs : s.Closed) : t.Closed ∨ s.WentOut t := by
  cases h with
  | last _ _ => exact .inl (hs.push_of_none rfl rfl rfl)
  | @opened head a m _ _ _ hopens _ =>
    right
    obtain ⟨rfl, after, hafter⟩ := Maze.opensBy_eq_true_iff.1 hopens
    obtain ⟨-, hflags⟩ := Maze.openDoor_eq_ok_iff.1 hafter
    have hattempted : s.attempted m .openDoor
        = { s with maze := some after }.noted (.acted ⟨s.line, .openDoor, none, after⟩) := by
      rw [Session.attempted, hafter]
    rw [hattempted]
    refine ⟨⟨s.line, .openDoor, none, after⟩, ⟨rfl, rfl⟩, ?_, after, rfl, ?_⟩
    · simp [Session.noted]
    · rw [hflags]
      rfl

end Exec

namespace Session

theorem closed_empty : ({} : Session).Closed :=
  ⟨fun _ he => absurd he List.not_mem_nil, fun _ hm => absurd hm List.not_mem_nil⟩

theorem closed_opening (n : Int) (words : Text) (k : PresetNumber) {m : Maze}
    (hm : m.hasOpenedDoor = false) : (opening n words k m).Closed := by
  refine ⟨fun _ he => absurd he List.not_mem_nil, fun m' hm' => ?_⟩
  rw [List.mem_singleton.1 hm', hm]

end Session

/-! ## Runs -/

namespace Run

open Exec

variable {p : Program} {c : Config} {o : Outcome}

/-- The journal of a run tells how far it has come. -/
theorem Course.told (h : Course p c o) : o.session.Told := by
  cases h with
  | refused _ hs =>
    rcases hs with rfl | ⟨n, words, rfl⟩
    · exact Session.told_empty
    · exact Session.told_entered Session.told_empty n words
  | stopped _ _ hstops => exact hstops.journey.keeps Move.told (Session.told_opening ..)
  | finished _ _ _ hjourney hfinish =>
    exact hfinish.told (hjourney.keeps Move.told (Session.told_opening ..))

/-- A run opens the way out and has nothing more to do, or it leaves it closed. -/
theorem Course.wayOut (h : Course p c o)
    (hclosed : ∀ k m, c.loader k = .ok m → m.hasOpenedDoor = false) :
    o.session.Closed ∨ o.ending = .ok .halt ∧ ∃ s : Session, s.Closed ∧ s.WentOut o.session := by
  have hbegin : ∀ {n : Int} {words : Text} {k : PresetNumber} {m : Maze}, c.loader k = .ok m →
      (Session.opening n words k m).Told ∧ (Session.opening n words k m).Closed := by
    intro n words k m hm
    exact ⟨Session.told_opening n words k m, Session.closed_opening n words k (hclosed k m hm)⟩
  cases h with
  | refused _ hs =>
    left
    rcases hs with rfl | ⟨n, words, rfl⟩
    · exact Session.closed_empty
    · exact Session.closed_empty.push_of_none rfl rfl rfl
  | stopped _ hm hstops => exact .inl (hstops.journey.closed (hbegin hm)).2
  | finished _ hm _ hjourney hfinish =>
    have hway := (hjourney.closed (hbegin hm)).2
    rcases hfinish.wayOut hway with hstill | hout
    · exact .inl hstill
    · exact .inr ⟨rfl, _, hway, hout⟩

/-- A result sums up what has happened to a maze that was loaded. -/
theorem Course.sumsUp {r : Result} (h : Course p c o) (hr : o.result = .ok r) :
    r = summary true o.session ∧
      ∃ k m, c.loader k = .ok m ∧ o.session.Observed p m := by
  cases h with
  | refused _ _ => cases hr
  | stopped _ _ _ => cases hr
  | finished _ hm _ hjourney hfinish =>
    cases hr
    exact ⟨rfl, _, _, hm, hfinish.observed (hjourney.observed (Session.observed_opening ..))⟩

/-- A run that leaves the way out closed is solved if the robot stands on the exit. -/
theorem Course.solved_iff {r : Result} (h : Course p c o)
    (hmazes : ∀ k m, c.loader k = .ok m → m.WellFormed) (hclosed : o.session.Closed)
    (hr : o.result = .ok r) :
    ∃ m, r.maze = some m ∧ (r.solved = true ↔ m.robot.location = m.exit) := by
  obtain ⟨rfl, k, m, hm, hobserved⟩ := h.sumsUp hr
  obtain ⟨now, hnow, hreplays⟩ := hobserved.maze
  have hwellFormed : now.WellFormed := by
    rw [hreplays.after_eq]
    exact ((hmazes k m hm).after _).1
  have hshut : now.hasOpenedDoor = false := hclosed.maze h.told hnow
  refine ⟨now, hnow, ?_⟩
  have hsolved : (summary true o.session).solved = now.isSolved := by simp [summary, hnow]
  rw [hsolved, Maze.isSolved, hshut, Bool.or_false, hwellFormed.atExit_iff]

/-- **Opening the way out ends the run at once.**  Let the loader return mazes as they are built,
under any names.  The journal of a run tells how many lines it has executed, its variables and its
maze, wherever the run stands.  If an event opens the way out, then it is the only one, and the last
thing that the journal shows but for the remark that the maze is solved: no line is executed and no
variable is set after it, the run has a result, and it is halted and solved with an open way out.
If no event does, then the way out is closed in every maze of the run, and a run with a result is
solved if and only if the robot stands on the exit in the end. -/
theorem opening_ends_run
    (hmazes : ∀ k m, c.loader k = .ok m →
      ∃ (b : Maze) (name : Text), b.Built ∧ m = { b with name := name })
    (limit : Nat) (src : Text) :
    (run c limit src).session.Told ∧
    (∀ e ∈ (run c limit src).events, e.Opens →
      ∃ (before : List Entry) (r : Result) (m : Maze),
        (run c limit src).session.journal.toList = before ++ [.acted e, .solved e.line] ∧
        (run c limit src).events = Journal.events before ++ [e] ∧
        (∀ f ∈ Journal.events before, ¬ f.Opens) ∧
        (∀ seen ∈ Journal.mazes before, seen.hasOpenedDoor = false) ∧
        (run c limit src).result = .ok r ∧ r.halted = true ∧ r.solved = true ∧
        r.maze = some m ∧ m.hasOpenedDoor = true ∧
        r.executed = (Journal.lines before).length ∧ r.env = Journal.env before) ∧
    ((∀ e ∈ (run c limit src).events, ¬ e.Opens) →
      (∀ seen ∈ (run c limit src).session.mazes, seen.hasOpenedDoor = false) ∧
      ∀ r, (run c limit src).result = .ok r →
        ∃ m, r.maze = some m ∧ (r.solved = true ↔ m.robot.location = m.exit)) := by
  have hcourse := course_run c limit src
  have htold : (run c limit src).session.Told := by
    obtain ⟨hexecuted, henv, hmaze⟩ := hcourse.told
    exact ⟨hexecuted, henv, hmaze⟩
  have hwellFormed : ∀ k m, c.loader k = .ok m → m.WellFormed := by
    intro k m hm
    obtain ⟨b, name, hbuilt, rfl⟩ := hmazes k m hm
    exact { hbuilt.wellFormed with }
  have hshut : ∀ k m, c.loader k = .ok m → m.hasOpenedDoor = false := by
    intro k m hm
    obtain ⟨b, name, hbuilt, rfl⟩ := hmazes k m hm
    exact hbuilt.flags.2.2
  refine ⟨htold, ?_, ?_⟩
  · intro e he hopens
    rcases hcourse.wayOut hshut with hclosed | ⟨hhalt, s, hs, f, hf, hjournal, m, hm, hopened⟩
    · exact absurd hopens (hclosed.events e he)
    · have hending : (run c limit src).ending = .ok .halt := hhalt
      have hentries : (run c limit src).session.journal.toList
          = s.journal.toList ++ [.acted f, .solved f.line] := hjournal
      have hmaze : (run c limit src).session.maze = some m := hm
      have hevents : (run c limit src).events = s.events ++ [f] := by
        rw [Outcome.events, hentries]
        simp [Session.events, Journal.events, Entry.event?]
      -- before `f` nothing was opened
      obtain rfl : e = f := by
        rw [hevents, List.mem_append, List.mem_singleton] at he
        exact he.resolve_left fun hearlier => hs.events e hearlier hopens
      refine ⟨s.journal.toList, summary true (run c limit src).session, m, hentries, hevents,
        hs.events, hs.mazes, ?_, rfl, ?_, hmaze, hopened, ?_, ?_⟩
      · rw [Outcome.result, hending]
        rfl
      · simp [summary, hmaze, Maze.isSolved, hopened]
      · show (run c limit src).session.executed = _
        rw [htold.executed, Session.trail, hentries]
        simp [Journal.lines, Entry.line?]
      · show (run c limit src).session.env = _
        rw [htold.env, hentries]
        simp [Journal.env, Entry.set]
  · intro hnone
    rcases hcourse.wayOut hshut with hclosed | ⟨-, s, -, f, hf, hjournal, -⟩
    · exact ⟨hclosed.mazes, fun r hr => hcourse.solved_iff hwellFormed hclosed hr⟩
    · -- the way out is not opened without an event
      have hmem : f ∈ (run c limit src).events := by
        show f ∈ Journal.events (run c limit src).bare.session.journal.toList
        rw [hjournal]
        simp [Journal.events, Entry.event?]
      exact absurd hf (hnone f hmem)

/-- Walks to the exit and opens it in a branch of a branch of a loop, with more to do behind it. -/
def leaving : Text :=
  utf8 "LOAD 3\nWHILE FRONT_IS_CLEAR\nMOVE_FORWARD\nIF AT_EXIT\nout := TRUE\nIF out\nOPEN_DOOR\n"
    ++ utf8 "out := FALSE\nEND\nMOVE_FORWARD\nEND\nEND\nPICK_KEY\nEND"

/-- In the corridor the run ends on the seventh line of the program, and the variable is still
true. -/
theorem leaving_opening_ends_run :
    ∃ (before : List Entry) (e : Event) (r : Result), e.Opens ∧
      (run Structured.corridor 4 leaving).session.journal.toList
        = before ++ [.acted e, .solved 7] ∧
      (run Structured.corridor 4 leaving).result = .ok r ∧ r.halted = true ∧ r.solved = true ∧
      r.env = Journal.env before ∧ r.env.get? "out" = some true := by
  have hrows : Maze.ofRows Maze.twoKeys 3 (some ⟨4, 1⟩)
      = .ok (.ofDrawing Maze.twoKeys ⟨1, 1⟩ ⟨3, 1⟩ ⟨5, 1⟩ ⟨4, 1⟩ .east) := rfl
  have hmazes : ∀ k m, Structured.corridor.loader k = .ok m →
      ∃ (b : Maze) (name : Text), b.Built ∧ m = { b with name := name } := by
    rintro k m hm
    cases hm
    exact ⟨_, [], .rows hrows, rfl⟩
  have hfound : ((run Structured.corridor 4 leaving).events.find? fun e => e.Opens).map Event.line
      = some 7 := by decide +kernel
  have hout : (run Structured.corridor 4 leaving).result.toOption.map (fun r => r.env.get? "out")
      = some (some true) := by decide +kernel
  obtain ⟨e, hfind, hline⟩ := Option.map_eq_some_iff.1 hfound
  have hopens : e.Opens := by simpa using List.find?_some hfind
  obtain ⟨-, hended, -⟩ := opening_ends_run hmazes 4 leaving
  obtain ⟨before, r, m, hjournal, -, -, -, hr, hhalted, hsolved, -, -, -, henv⟩ :=
    hended e (List.mem_of_find?_eq_some hfind) hopens
  rw [hline] at hjournal
  rw [hr] at hout
  exact ⟨before, e, r, hopens, hjournal, hr, hhalted, hsolved, henv, Option.some.inj hout⟩

end Run

end RobotMaze

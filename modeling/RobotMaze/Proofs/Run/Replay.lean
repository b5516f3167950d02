import RobotMaze.Proofs.Maze.Attempt
import RobotMaze.Proofs.Run.Journey

/-!
# Replaying a run

A maze changes only where the journal notes an action.  So whoever tries the actions of a journal
again, beginning with the maze that was loaded, sees each of them accepted or rejected as it is
noted, and ends with the maze that the run has left.

* `Maze.Replays` — events tell what their actions do one after another;
* `Session.Observed` — what the journal of a session tells about its maze, which every move keeps;
* `Run.events_replay` — the events of a run tell all that happened to its maze.
-/

namespace RobotMaze

/-! ## Events that tell what happens -/

/-- Actions that are tried one after another, beginning with the maze `m`, are accepted or rejected
as their events tell, and lead to the maze `after`.  A rejected action changes nothing. -/
inductive Maze.Replays : (m : Maze) → List Event → (after : Maze) → Prop where
  | done (m : Maze) : Replays m [] m
  | accepted {m next after : Maze} {line : Int} {a : Action} {rest : List Event}
      (h : m.perform a = .ok next) (hrest : Replays next rest after) :
      Replays m (⟨line, a, none, next⟩ :: rest) after
  | rejected {m after : Maze} {line : Int} {a : Action} {reason : Rejection} {rest : List Event}
      (h : m.perform a = .error reason) (hrest : Replays m rest after) :
      Replays m (⟨line, a, some reason, m⟩ :: rest) after

namespace Maze.Replays

variable {m n after : Maze} {events more : List Event}

/-- Events determine the maze that they lead to. -/
theorem after_eq (h : m.Replays events after) : after = m.after (events.map Event.action) := by
  induction h with
  | done m => rfl
  | accepted hperform _ ih =>
    rw [List.map_cons, after_cons, ih, attempt, hperform]
  | rejected hperform _ ih =>
    rw [List.map_cons, after_cons, ih, attempt, hperform]

theorem append (h : m.Replays events n) (hmore : n.Replays more after) :
    m.Replays (events ++ more) after := by
  induction h with
  | done m => exact hmore
  | accepted hperform _ ih => exact .accepted hperform (ih hmore)
  | rejected hperform _ ih => exact .rejected hperform (ih hmore)

end Maze.Replays

/-! ## Sessions -/

namespace Session

variable {p : Program} {m : Maze} {s t : Session}

/-- The actions of a session. -/
def events (s : Session) : List Event := Journal.events s.journal.toList

theorem events_noted_of_none {e : Entry} (h : e.event? = none) : (s.noted e).events = s.events := by
  simp [events, Journal.events, noted, h]

theorem events_noted_acted (s : Session) (e : Event) :
    (s.noted (.acted e)).events = s.events ++ [e] := by
  simp [events, Journal.events, noted, Entry.event?]

/-- The journal of a session tells what has happened to the maze `m` since it was loaded. -/
structure Observed (p : Program) (m : Maze) (s : Session) : Prop where
  maze : ∃ now, s.maze = some now ∧ m.Replays s.events now
  warnings : s.warnings.toList = s.events.filterMap Event.rejected?
  /-- Each action is all that stands on its line. -/
  lines : ∀ e ∈ s.events, p.Reads e.line [(Kind.action e.action).text]

theorem Observed.of_same (h : s.Observed p m) (hmaze : t.maze = s.maze)
    (hwarnings : t.warnings = s.warnings) (hevents : t.events = s.events) : t.Observed p m := by
  refine ⟨?_, ?_, ?_⟩
  · rw [hmaze, hevents]
    exact h.maze
  · rw [hwarnings, hevents]
    exact h.warnings
  · rw [hevents]
    exact h.lines

theorem observed_opening (p : Program) (n : Int) (words : Text) (k : PresetNumber) (m : Maze) :
    (opening n words k m).Observed p m :=
  ⟨⟨m, rfl, .done m⟩, rfl, fun _ he => absurd he List.not_mem_nil⟩

/-- An action is noted as it turned out. -/
theorem Observed.attempted (h : s.Observed p m) {now : Maze} (hnow : s.maze = some now) {a : Action}
    (hline : p.Reads s.line [(Kind.action a).text]) : (s.attempted now a).Observed p m := by
  obtain ⟨now', hnow', hreplays⟩ := h.maze
  cases hnow.symm.trans hnow'
  have hlines : ∀ {e : Event}, e.line = s.line → e.action = a →
      ∀ f ∈ s.events ++ [e], p.Reads f.line [(Kind.action f.action).text] := by
    intro _ he ha f hf
    rcases List.mem_append.1 hf with hf | hf
    · exact h.lines f hf
    · rw [List.mem_singleton.1 hf, he, ha]
      exact hline
  unfold Session.attempted
  cases hperform : now.perform a with
  | ok after =>
    have hevents : ({ s with maze := some after }.noted (.acted ⟨s.line, a, none, after⟩)).events
        = s.events ++ [⟨s.line, a, none, after⟩] := events_noted_acted _ _
    refine ⟨⟨after, rfl, ?_⟩, ?_, ?_⟩
    · rw [hevents]
      exact hreplays.append (.accepted hperform (.done after))
    · rw [hevents, List.filterMap_append, ← h.warnings]
      simp [Event.rejected?, noted]
    · rw [hevents]
      exact hlines rfl rfl
  | error reason =>
    have hevents : ({ s with warnings := s.warnings.push ⟨a, reason⟩ }.noted
        (.acted ⟨s.line, a, some reason, now⟩)).events
        = s.events ++ [⟨s.line, a, some reason, now⟩] := events_noted_acted _ _
    refine ⟨⟨now, hnow, ?_⟩, ?_, ?_⟩
    · rw [hevents]
      exact hreplays.append (.rejected hperform (.done now))
    · rw [hevents, List.filterMap_append, ← h.warnings]
      simp [Event.rejected?, noted]
    · rw [hevents]
      exact hlines rfl rfl

end Session

/-! ## Runs -/

namespace Exec

variable {p : Program} {m : Maze} {s t : Session}

theorem reads_action {n : Int} {head : Token} {a : Action} (hts : p.tokens n = .ok [head])
    (hkind : head.kind = .action a) : p.Reads n [(Kind.action a).text] := by
  have hkinds : [head].map Token.kind = [.action a] := by rw [List.map_singleton, hkind]
  refine Program.reads_keywords hts hkinds ?_
  cases a <;> decide

/-- Every move is told by the journal. -/
theorem Move.observed (h : Move p s t) (hs : s.Observed p m) : t.Observed p m := by
  cases h with
  | enter _ => exact hs.of_same rfl rfl (Session.events_noted_of_none rfl)
  | settle _ => exact hs.of_same rfl rfl rfl
  | attempt hts hkind hm _ => exact hs.attempted hm (reads_action hts hkind)
  | assign _ _ _ => exact hs.of_same rfl rfl (Session.events_noted_of_none rfl)

theorem Journey.observed (h : Journey p s t) (hs : s.Observed p m) : t.Observed p m :=
  h.keeps Move.observed hs

theorem Finish.observed (h : Finish p s t) (hs : s.Observed p m) : t.Observed p m := by
  cases h with
  | last _ _ => exact hs.of_same rfl rfl (Session.events_noted_of_none rfl)
  | opened hts hkind hm _ _ =>
    have hattempted := hs.attempted hm (reads_action hts hkind)
    exact hattempted.of_same rfl rfl (Session.events_noted_of_none rfl)

end Exec

namespace Run

open Exec

/-- A run has no maze and has made no attempts, or it tells what has happened to its maze. -/
theorem Course.observed {p : Program} {c : Config} {o : Outcome} (h : Course p c o) :
    (o.session.maze = none ∧ o.session.events = [] ∧ o.session.warnings = #[]) ∨
      ∃ k m, p.Opens k ∧ c.loader k = .ok m ∧ o.session.Observed p m := by
  cases h with
  | refused _ hs =>
    left
    rcases hs with rfl | ⟨n, words, rfl⟩
    · exact ⟨rfl, rfl, rfl⟩
    · exact ⟨rfl, rfl, rfl⟩
  | stopped hloads hm hstops =>
    exact .inr ⟨_, _, hloads.opens, hm, hstops.journey.observed (Session.observed_opening ..)⟩
  | finished hloads hm _ hjourney hfinish =>
    exact .inr ⟨_, _, hloads.opens, hm,
      hfinish.observed (hjourney.observed (Session.observed_opening ..))⟩

/-- **The events of a run tell all that happened to its maze.**  Let a run end in any way, or be
interrupted at any time.  Each event stands on a line whose only word is its action; the warnings
are the rejected events, in order; and if the run has loaded a maze, then the actions of the events,
tried again one after another in that maze, are accepted or rejected as the events tell and lead to
the maze that the run has left. -/
theorem events_replay (c : Config) (limit : Nat) (src : Text) :
    (∀ e ∈ (run c limit src).events,
      (Program.ofSource src).Reads e.line [(Kind.action e.action).text]) ∧
    (run c limit src).session.warnings.toList
      = (run c limit src).events.filterMap Event.rejected? ∧
    ((run c limit src).session.maze = none ∧ (run c limit src).events = [] ∨
      ∃ k m, (Program.ofSource src).Opens k ∧ c.loader k = .ok m ∧
        m.Replays (run c limit src).events
          (m.after ((run c limit src).events.map Event.action)) ∧
        (run c limit src).session.maze
          = some (m.after ((run c limit src).events.map Event.action))) := by
  rcases (course_run c limit src).observed with
    ⟨hmaze, hevents, hwarnings⟩ | ⟨k, m, hopens, hm, hobserved⟩
  · have hnone : (run c limit src).events = [] := hevents
    refine ⟨?_, ?_, .inl ⟨hmaze, hnone⟩⟩
    · rw [hnone]
      exact fun e he => absurd he List.not_mem_nil
    · rw [hnone]
      exact congrArg Array.toList hwarnings
  · obtain ⟨after, hafter, hreplays⟩ := hobserved.maze
    obtain rfl := hreplays.after_eq
    exact ⟨hobserved.lines, hobserved.warnings, .inr ⟨k, m, hopens, hm, hreplays, hafter⟩⟩

end Run

end RobotMaze

import RobotMaze.Proofs.Run.Cap
import RobotMaze.Proofs.Run.Order

/-!
# Runs that end

A loop with a cap makes no more iterations than that, and nothing but a loop goes back to an earlier
line.  So a run ends, whatever its source is, if there is a cap or if there are no loops.

* `Exec.program_stops` — why a program stops, and when it may run out of rounds;
* `Run.Returns.mayStop` — so a run fails for a fault, or because a loop exceeds the cap;
* `Run.terminates` — with a cap or without loops, the run ends with a result or an error.
-/

namespace RobotMaze

open Step

/-- The reasons to stop that have nothing to do with the cap: a fault, or a loader that cannot hold
its maze. -/
def Config.Rejects (c : Config) (e : Stop) : Prop :=
  e.IsFault ∨ e = .outOfRange ∧ ∃ k, c.loader k = .error .tooLarge

/-- The reasons for which a run stops that has as many rounds as it needs. -/
def Config.MayStop (c : Config) (e : Stop) : Prop :=
  c.Rejects e ∨ 0 < c.cap ∧ ∃ n, e = Exec.exceeded c.cap n

variable {p : Program} {c : Config}

/-- There are loops, and no more rounds than the cap allows iterations. -/
def Exec.Short (p : Program) (c : Config) (limit : Nat) : Prop :=
  ¬ (0 < c.cap ∧ c.cap < limit) ∧ ∃ head ∈ p.heads, head.kind = .loop

/-- A program runs out of rounds only if it is short of them. -/
theorem Exec.program_stops {limit : Nat} {e : Stop} {s : Session}
    (hstops : program (Reader.fresh p) c limit {} = .error e s) :
    c.MayStop e ∨ e = .unfinished ∧ Short p c limit := by
  have hsteady : Steady p c Eq fun e _ _ _ => c.MayStop e :=
    steady_eq (fun _ err herr => .inl (.inl ⟨err, rfl, herr⟩))
      fun _ k hk => .inl (.inr ⟨rfl, k, hk⟩)
  have hparallel : Parallel (.abreast p Eq (fun e _ _ _ => c.MayStop e) fun e =>
      e = .unfinished ∧ Short p c limit) p p (Reader.fresh p) (Reader.fresh p) c c :=
    hsteady.fresh fun _ _ => rfl
  have hloops : Loops (.abreast p Eq (fun e _ _ _ => c.MayStop e) fun e =>
      e = .unfinished ∧ Short p c limit) p (Reader.fresh p) (Reader.fresh p) c c limit limit := by
    intro steps n head args hts hkind
    refine hparallel.loops ?_ (fun _ _ => id) ?_ hts hkind
    · by_cases hample : 0 < c.cap ∧ c.cap < limit
      · exact .ample hample.1 (by omega) (by omega)
      · exact .excused ⟨rfl, hample, head, Program.mem_heads hts, hkind⟩ (Nat.le_refl limit)
    · exact fun j n hj => .inr ⟨hj, fun _ _ _ => .inr ⟨hj.1, n, rfl⟩⟩
  have hmatches := hparallel.related_program hsteady.fails hsteady.related_last rfl rfl hloops
    {} {} rfl
  rw [hstops] at hmatches
  exact hmatches.symm

namespace Run

theorem ending_runFresh {limit : Nat} {src : Text} {e : Stop}
    (h : (runFresh c limit src).ending = .error e) :
    c.MayStop e ∨ e = .unfinished ∧ Exec.Short (.ofSource src) c limit := by
  obtain ⟨t, ht⟩ := Outcome.exists_of_ending h
  exact Exec.program_stops ht

/-- A run fails for a fault, or because a loop exceeds the cap. -/
theorem Returns.mayStop {src : Text} {o : Outcome} (h : Returns c src o) {e : Stop}
    (he : o.ending = .error e) : c.MayStop e := by
  obtain ⟨hended, limit, rfl⟩ := returns_iff.1 h
  rcases ending_runFresh he with hmay | ⟨rfl, -⟩
  · exact hmay
  · exact absurd he hended

theorem exists_returns (c : Config) (src : Text)
    (h : 0 < c.cap ∨ ∀ head ∈ (Program.ofSource src).heads, head.kind ≠ .loop) :
    ∃ o, Returns c src o := by
  refine ⟨runFresh c (c.cap.toNat + 1) src, returns_iff.2 ⟨fun hunfinished => ?_, _, rfl⟩⟩
  rcases ending_runFresh hunfinished with hmay | ⟨-, hfew, head, hhead, hkind⟩
  · rcases hmay with (⟨err, herr, -⟩ | ⟨herr, -⟩) | ⟨-, n, herr⟩ <;> cases herr
  · rcases h with hpos | hloop
    · exact hfew ⟨hpos, by omega⟩
    · exact hloop head hhead hkind

/-- Without loops, lines are executed in increasing order. -/
theorem Returns.ascending {src : Text} {o : Outcome} (h : Returns c src o)
    (hloop : ∀ head ∈ (Program.ofSource src).heads, head.kind ≠ .loop) : o.session.Ascending := by
  obtain ⟨-, limit, rfl⟩ := returns_iff.1 h
  refine Exec.program_ascends fun n hn => ?_
  obtain ⟨head, args, hts, hkind⟩ := Program.exists_of_head? hn
  exact hloop head (Program.mem_heads hts) hkind

/-- **Every run with a cap, and every run without loops, ends.**  It ends with a result or an error,
unless the loader cannot hold a maze; without loops, each line is executed at most once, and in
increasing order. -/
theorem terminates (c : Config) (src : Text)
    (h : 0 < c.cap ∨ ∀ head ∈ (Program.ofSource src).heads, head.kind ≠ .loop) :
    ∃ o, Returns c src o ∧
      ((∃ r, o.result = .ok r) ∨ (∃ e, o.result = .error (.failed e)) ∨
        o.result = .error .outOfRange ∧ ∃ k, c.loader k = .error .tooLarge) ∧
      ((∀ head ∈ (Program.ofSource src).heads, head.kind ≠ .loop) →
        (Journal.lines o.session.journal.toList).Pairwise (· < ·)) := by
  obtain ⟨o, ho⟩ := exists_returns c src h
  refine ⟨o, ho, ?_, ho.ascending⟩
  unfold Outcome.result
  cases hending : o.ending with
  | ok flow => exact .inl ⟨_, rfl⟩
  | error e =>
    rcases ho.mayStop hending with (⟨err, rfl, -⟩ | ⟨rfl, hk⟩) | ⟨-, n, rfl⟩
    · exact .inr (.inl ⟨err, rfl⟩)
    · exact .inr (.inr ⟨rfl, hk⟩)
    · exact .inr (.inl ⟨_, rfl⟩)

/-- Turns for ever. -/
def endless : Text := utf8 "LOAD 1\nWHILE TRUE\n  TURN_LEFT\nEND\nEND"

/-- Goes forward or turns, with a word that nothing stands for where it turns. -/
def fork : Text :=
  utf8 "LOAD 1\nIF FRONT_IS_CLEAR\n  MOVE_FORWARD\nOTHERWISE\n  TURN_LEFT $\nEND\nEND"

/-- A cap stops the loop that never ends, and the fork ends without a cap. -/
theorem endless_fork_terminates :
    (∃ o, Returns { Structured.corridor with cap := 1000000000 } endless o) ∧
      (∀ head ∈ (Program.ofSource fork).heads, head.kind ≠ .loop) ∧
      ∃ o, Returns { Structured.corridor with cap := 0 } fork o ∧
        (Journal.lines o.session.journal.toList).Pairwise (· < ·) := by
  have hloop : ∀ head ∈ (Program.ofSource fork).heads, head.kind ≠ .loop := by decide +kernel
  obtain ⟨o, ho, -⟩ := terminates { Structured.corridor with cap := 1000000000 } endless
    (.inl (by decide))
  obtain ⟨o', ho', -, hlines⟩ := terminates { Structured.corridor with cap := 0 } fork (.inr hloop)
  exact ⟨⟨o, ho⟩, hloop, o', ho', hlines hloop⟩

end Run

end RobotMaze

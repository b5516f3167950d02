import RobotMaze.Proofs.Run.Cap

/-!
# Inspected memos

The memo of a run changes only when the run consults its program.  So a run whose memo is inspected
before and after each consultation sees all memos that it ever has; and since an alarm would end the
run, it goes on undisturbed only if the memo is coherent all the time.

* `Reader.inspected` — consults a program with inspections;
* `Exec.program_inspected` — no inspection ever disturbs a run;
* `Run.memory_transparent` — what a run remembers is right in every state, and does not show.
-/

namespace RobotMaze

open Step

variable {p : Program} {c : Config}

instance (p : Program) (m : Memo) : Decidable (m.Coherent p) :=
  decidable_of_iff
    ((∀ e ∈ m.tokens, p.tokens e.1 = .ok e.2) ∧ (∀ n ∈ m.last, p.last = .ok n) ∧
      (∀ e ∈ m.blocks, p.block e.1 = .ok e.2) ∧ ∀ e ∈ m.exprs, p.expr e.1 = .ok e.2)
    ⟨fun ⟨htokens, hlast, hblocks, hexprs⟩ => ⟨htokens, hlast, hblocks, hexprs⟩,
      fun ⟨htokens, hlast, hblocks, hexprs⟩ => ⟨htokens, hlast, hblocks, hexprs⟩⟩

/-! ## Inspections -/

namespace Reader

/-- Ends the run with an alarm if anything is remembered that the program would not give. -/
def inspect (p : Program) (alarm : Stop) : Step Unit := do
  if (← get).memo.Coherent p then pure () else throw alarm

/-- A step with an inspection before it and one behind it. -/
def watch {α : Type} (p : Program) (alarm : Stop) (x : Step α) : Step α := do
  inspect p alarm
  let a ← x
  inspect p alarm
  return a

/-- Remembers what was worked out once, under inspection. -/
def inspected (p : Program) (alarm : Stop) : Reader where
  size := p.size
  tokens n := watch p alarm ((kept p).tokens n)
  last := watch p alarm (kept p).last
  block n := watch p alarm ((kept p).block n)
  expr n ts := watch p alarm ((kept p).expr n ts)

theorem inspect_of_coherent {s : Session} (hs : s.memo.Coherent p) (alarm : Stop) :
    inspect p alarm s = .ok () s := by
  rw [inspect, bind_get, if_pos hs]
  rfl

end Reader

/-- An inspection does not disturb what is recalled. -/
theorem Step.Recalls.watch_eq {α : Type} {given : Except Stop α} {x : Step α}
    (hx : Recalls p given x) (alarm : Stop) {s : Session} (hs : s.memo.Coherent p) :
    Reader.watch p alarm x s = x s := by
  obtain ⟨t, -, ht, hxs⟩ := hx s hs
  rw [Reader.watch, bind_of_ok (Reader.inspect_of_coherent hs alarm)]
  cases given with
  | ok a =>
    have hok : x s = .ok a t := hxs
    rw [bind_of_ok hok, bind_of_ok (Reader.inspect_of_coherent ht alarm), hok]
    rfl
  | error e =>
    have herror : x s = .error e t := hxs
    rw [bind_of_error herror, herror]

/-! ## Runs under inspection -/

/-- Two runs that do the same, with coherent memos. -/
def Accord.inspecting (p : Program) : Accord :=
  .abreast p (fun s t => t = s ∧ s.memo.Coherent p) fun e s f t => f = e ∧ t = s

theorem Step.Recalls.related_watch {α : Type} {given : Except Stop α} {x : Step α}
    (hx : Recalls p given x) (alarm : Stop) :
    Related (.inspecting p) (fun a b => b = a ∧ given = .ok a) x (Reader.watch p alarm x) := by
  rintro _ s ⟨rfl, hs⟩
  rw [hx.watch_eq alarm hs]
  obtain ⟨t, -, ht, hxs⟩ := hx s hs
  rw [hxs]
  cases given with
  | ok a => exact ⟨⟨rfl, rfl⟩, rfl, ht⟩
  | error e => exact .inr ⟨rfl, rfl⟩

namespace Exec

theorem kept_coherent : Kept p c fun s => s.memo.Coherent p where
  settle := fun _ hs => hs
  enter := fun _ _ hs => hs
  load := fun _ _ hs _ _ => hs
  attempt := by
    intro s m a hs _
    unfold Session.attempted
    cases m.perform a with
    | ok after => exact hs
    | error reason => exact hs
  solve := fun _ hs => hs
  assign := fun _ hs _ _ => hs

theorem parallel_inspected (alarm : Stop) :
    Parallel (.inspecting p) p p (Reader.kept p) (Reader.inspected p alarm) c c := by
  have hsteady : Steady p c (fun s t => t = s ∧ s.memo.Coherent p) fun e s f t => f = e ∧ t = s :=
    kept_coherent.steady (fun _ => ⟨rfl, rfl⟩) fun _ => ⟨rfl, rfl⟩
  refine hsteady.parallel (fun _ _ => rfl) ?_ ?_ ?_ ?_
  · intro n _ _
    exact (Reader.recalls_tokens n).related_watch alarm
  · rintro n _ s ⟨rfl, hs⟩
    obtain ⟨b, hb⟩ := isLast_fresh p n
    obtain ⟨t, hbare, ht, hisLast⟩ := isLast_of_recalls Reader.recalls_last n hs
    have hwatched : isLast (Reader.inspected p alarm) n s = isLast (Reader.kept p) n s := by
      rw [isLast_apply, isLast_apply]
      simp only [Reader.inspected]
      rw [Reader.recalls_last.watch_eq alarm hs]
    have hline : t.bare.line = s.bare.line := congrArg (fun u : Session => u.line) hbare
    exact ⟨b, t, t, hisLast.trans (hb t), hwatched.trans (hisLast.trans (hb t)), ⟨rfl, ht⟩, hline,
      hline⟩
  · intro n head args _
    exact (Reader.recalls_block n).related_watch alarm
  · intro n ts hts
    exact Related.mono ((Reader.recalls_expr hts).related_watch alarm) fun _ _ h => h.1.symm

/-- **No inspection ever disturbs a run.** -/
theorem program_inspected (p : Program) (c : Config) (limit : Nat) (alarm : Stop) :
    program (Reader.inspected p alarm) c limit {} = program (Reader.kept p) c limit {} := by
  have hparallel : Parallel (.inspecting p) p p _ _ c c := parallel_inspected alarm
  have hrelated : Related (.inspecting p) Eq (program (Reader.kept p) c limit)
      (program (Reader.inspected p alarm) c limit) := by
    refine hparallel.related_program ?_ (Reader.recalls_last.related_watch alarm) rfl rfl ?_
    · rintro s _ e _ ⟨rfl, -⟩
      exact ⟨rfl, rfl⟩
    · refine hparallel.loops (.equal ?_) (fun j _ => id) ?_
      · rintro s _ ⟨rfl, -⟩
        exact ⟨rfl, rfl⟩
      · intro j n hj
        refine .inr ⟨hj, ?_⟩
        rintro s _ ⟨rfl, -⟩
        exact ⟨rfl, rfl⟩
  have hmatches := hrelated {} {} ⟨rfl, Memo.coherent_empty p⟩
  exact hmatches.eq And.left id id

end Exec

namespace Run

/-- Executes a source and inspects what is remembered of it on the way. -/
def runInspected (alarm : Stop) (c : Config) (limit : Nat) (src : Text) : Outcome :=
  Outcome.ofStep (Exec.program (Reader.inspected (Program.ofSource src) alarm) c limit) {}

/-- **What a run remembers does not show.**  Every source has the same result or error, with the
same events, warnings and log, whether or not the run remembers lines, blocks and expressions; in
fact the run leaves the same session but for its memo.  And whatever it remembers, in every state,
is what the program would give: an inspection before and after each consultation, for any alarm that
it might give, changes nothing, and the memo is coherent in the end. -/
theorem memory_transparent (c : Config) (limit : Nat) (src : Text) :
    (run c limit src).result = (runFresh c limit src).result ∧
    (run c limit src).events = (runFresh c limit src).events ∧
    (run c limit src).session.warnings = (runFresh c limit src).session.warnings ∧
    (∀ v, (run c limit src).log v = (runFresh c limit src).log v) ∧
    (run c limit src).bare = runFresh c limit src ∧
    (∀ alarm, runInspected alarm c limit src = run c limit src) ∧
    (run c limit src).session.memo.Coherent (Program.ofSource src) := by
  obtain ⟨-, -, hcoherent⟩ := run_forgets c limit src
  have hinspected : ∀ alarm, runInspected alarm c limit src = run c limit src := by
    intro alarm
    rw [runInspected, run, Outcome.ofStep, Outcome.ofStep, Exec.program_inspected]
  rw [← bare_run]
  exact ⟨rfl, rfl, rfl, fun _ => rfl, rfl, hinspected, hcoherent⟩

end Run

end RobotMaze

import RobotMaze.Proofs.Run.Memo
import RobotMaze.Proofs.Structured.Code

/-!
# The cap on iterations

A run that is granted more rounds than it needs does not show how many it was granted, so it makes
sense to speak of what a run returns.  A cap on the iterations of loops shows in one error only: as
long as no loop exceeds it, the cap can be raised or removed.

* `Run.Returns` — what a run returns, if it ends;
* `Run.Returns.eventually`, `Run.Returns.unique` — it is told by all runs with enough rounds;
* `Run.Returns.raised` — a higher cap, or none, leaves every other outcome as it is;
* `Run.Returns.capped` — without a cap a run that ends stays below some cap.
-/

namespace RobotMaze

open Step

/-! ## Runs that do the same -/

/-- Two runs over the same lines that do the same, unless the first one stops for an excused
reason. -/
def Accord.same (p : Program) (excused : Stop → Prop := fun _ => False) : Accord :=
  .abreast p Eq (fun e s f t => f = e ∧ s = t) excused

namespace Run

/-- What is left of an outcome without what the run remembers of its program. -/
def Outcome.bare (o : Outcome) : Outcome := { o with session := o.session.bare }

theorem bare_run (c : Config) (limit : Nat) (src : Text) :
    (run c limit src).bare = runFresh c limit src := by
  obtain ⟨hending, hsession, -⟩ := run_forgets c limit src
  rw [Outcome.bare, hending, hsession]

theorem Outcome.exists_of_ending {step : Step Flow} {s : Session} {e : Stop}
    (h : (ofStep step s).ending = .error e) : ∃ t, step s = .error e t := by
  unfold ofStep at h
  cases hstep : step s with
  | ok flow t =>
    rw [hstep] at h
    cases h
  | error e' t =>
    rw [hstep] at h
    cases h
    exact ⟨t, rfl⟩

/-- Two runs of a source that differ in their caps and in the rounds that they are granted do the
same, unless the first one is stopped for an excused reason. -/
theorem runFresh_eq (c c' : Config) (src : Text) {limit limit' : Nat} (excused : Stop → Prop)
    (hloader : c'.loader = c.loader) (hunfinished : excused .unfinished) (hlimit : limit ≤ limit')
    (hcap : ∀ j < limit, Exec.Spent c'.cap j → Exec.Spent c.cap j)
    (hspent : ∀ j n, Exec.Spent c.cap j →
      excused (Exec.exceeded c.cap n) ∨ c'.cap = c.cap) :
    (∃ e, (runFresh c limit src).ending = .error e ∧ excused e) ∨
      runFresh c' limit' src = runFresh c limit src := by
  have hsteady : Exec.Steady (.ofSource src) c Eq fun e s f t => f = e ∧ s = t :=
    Exec.steady_eq (fun s e _ => ⟨rfl, rfl⟩) fun s k _ => ⟨rfl, rfl⟩
  have hparallel : Exec.Parallel (.same (.ofSource src) excused) (.ofSource src) (.ofSource src)
      (Reader.fresh (.ofSource src)) (Reader.fresh (.ofSource src)) c c' :=
    hsteady.fresh fun _ _ => hloader
  have hloops := hparallel.loops (.excused hunfinished hlimit) hcap fun j n hj =>
    (hspent j n hj).imp_right fun h =>
      ⟨by rwa [h], fun s t hst => ⟨by rw [h], hst⟩⟩
  have hmatches := hparallel.related_program (fun e hst => ⟨rfl, hst⟩)
    hsteady.related_last rfl rfl hloops {} {} rfl
  unfold runFresh Outcome.ofStep
  revert hmatches
  cases Exec.program (Reader.fresh (Program.ofSource src)) c limit {} with
  | ok flow s =>
    cases Exec.program (Reader.fresh (Program.ofSource src)) c' limit' {} with
    | ok flow' t =>
      rintro ⟨rfl, rfl⟩
      exact .inr rfl
    | error f t => exact False.elim
  | error e s =>
    cases Exec.program (Reader.fresh (Program.ofSource src)) c' limit' {} with
    | ok flow' t => exact fun hexcused => .inl ⟨e, rfl, hexcused⟩
    | error f t =>
      rintro (hexcused | ⟨rfl, rfl⟩)
      · exact .inl ⟨e, rfl, hexcused⟩
      · exact .inr rfl

/-! ## What a run returns -/

/-- A run of a source ends with the outcome `o`, apart from what it remembers of the source. -/
def Returns (c : Config) (src : Text) (o : Outcome) : Prop :=
  o.ending ≠ .error .unfinished ∧ ∃ limit, (run c limit src).bare = o

variable {c : Config} {src : Text} {o o' : Outcome}

theorem returns_iff :
    Returns c src o ↔ o.ending ≠ .error .unfinished ∧ ∃ limit, runFresh c limit src = o := by
  simp only [Returns, bare_run]

/-- More rounds than a run needs make no difference. -/
theorem runFresh_of_le {limit limit' : Nat} (hlimit : limit ≤ limit')
    (h : (runFresh c limit src).ending ≠ .error .unfinished) :
    runFresh c limit' src = runFresh c limit src := by
  rcases runFresh_eq c c src (· = .unfinished) rfl rfl hlimit (fun j _ => id)
    fun j n _ => .inr rfl with ⟨e, he, rfl⟩ | heq
  · exact absurd he h
  · exact heq

/-- All runs with enough rounds tell what is returned. -/
theorem Returns.eventually (h : Returns c src o) :
    ∃ enough, ∀ limit, enough ≤ limit → (run c limit src).bare = o := by
  obtain ⟨hended, enough, rfl⟩ := returns_iff.1 h
  refine ⟨enough, fun limit hlimit => ?_⟩
  rw [bare_run]
  exact runFresh_of_le hlimit hended

/-- A run returns one outcome. -/
theorem Returns.unique (h : Returns c src o) (h' : Returns c src o') : o = o' := by
  obtain ⟨enough, henough⟩ := h.eventually
  obtain ⟨enough', henough'⟩ := h'.eventually
  rw [← henough _ (Nat.le_max_left enough enough'), henough' _ (Nat.le_max_right enough enough')]

/-! ## Other caps -/

/-- The loop on line `n` has exceeded its iterations. -/
def Outcome.Exceeded (o : Outcome) (n : Int) : Prop :=
  ∃ cap, o.ending = .error (.failed { fault := .loopExceeded cap, line := n })

/-- A run that exceeds no cap does the same with a higher cap and without one. -/
theorem Returns.raised (h : Returns c src o) (hpos : 0 < c.cap) {cap : Int}
    (hcap : c.cap ≤ cap ∨ cap ≤ 0) (hnot : ∀ n, ¬ o.Exceeded n) :
    Returns { c with cap := cap } src o := by
  obtain ⟨hended, limit, rfl⟩ := returns_iff.1 h
  refine returns_iff.2 ⟨hended, limit, ?_⟩
  have hspent : ∀ j < limit, Exec.Spent cap j → Exec.Spent c.cap j := by
    rintro j - ⟨hpos', hj⟩
    exact ⟨hpos, by omega⟩
  rcases runFresh_eq c { c with cap := cap } src
    (fun e => e = .unfinished ∨ ∃ n, e = Exec.exceeded c.cap n) rfl (.inl rfl) (Nat.le_refl limit)
    hspent fun j n _ => .inl (.inr ⟨n, rfl⟩) with ⟨e, he, rfl | ⟨n, rfl⟩⟩ | heq
  · exact absurd he hended
  · exact absurd ⟨c.cap, he⟩ (hnot n)
  · exact heq

/-- **Raising or removing the cap changes nothing but errors of the cap.**  What a run returns,
unless it is that a loop has exceeded its iterations, is also returned with a higher cap and without
a cap. -/
theorem returns_of_cap_le (c : Config) (src : Text) {N M : Int} (hN : 0 < N)
    (hM : N ≤ M ∨ M ≤ 0) {o : Outcome} (h : Returns { c with cap := N } src o)
    (hnot : ∀ n, ¬ o.Exceeded n) : Returns { c with cap := M } src o :=
  h.raised hN hM hnot

/-- In the corridor the robot collects its keys and leaves. -/
theorem exists_returns_collector :
    ∃ o, o.ending = .ok .halt ∧
      Returns Structured.corridor (Structured.collector.source .one) o := by
  have hhalt : (run Structured.corridor 5 (Structured.collector.source .one)).bare.ending
      = .ok .halt := by
    decide +kernel
  refine ⟨_, hhalt, ?_, 5, rfl⟩
  rw [hhalt]
  nofun

/-- In the corridor the robot leaves in the fourth iteration.  A cap of four lets it, and so do a
higher one and none at all. -/
theorem collector_returns_of_cap_le :
    ∃ o, o.ending = .ok .halt ∧
      Returns { Structured.corridor with cap := 4 } (Structured.collector.source .one) o ∧
      Returns { Structured.corridor with cap := 1000 } (Structured.collector.source .one) o ∧
      Returns { Structured.corridor with cap := 0 } (Structured.collector.source .one) o := by
  obtain ⟨o, hhalt, hreturns⟩ := exists_returns_collector
  have hnot : ∀ n, ¬ o.Exceeded n := by
    rintro n ⟨cap, hcap⟩
    rw [hhalt] at hcap
    cases hcap
  exact ⟨o, hhalt, hreturns,
    returns_of_cap_le Structured.corridor _ (by decide) (by decide) hreturns hnot,
    returns_of_cap_le Structured.corridor _ (by decide) (by decide) hreturns hnot⟩

/-- What is returned without a cap is also returned with some cap, and with all higher ones. -/
theorem Returns.capped (h : Returns c src o) (hc : c.cap ≤ 0) :
    ∃ enough : Nat, ∀ M : Int, enough ≤ M → Returns { c with cap := M } src o := by
  obtain ⟨hended, limit, rfl⟩ := returns_iff.1 h
  refine ⟨limit, fun M hM => returns_iff.2 ⟨hended, limit, ?_⟩⟩
  have hcap : ∀ j < limit, Exec.Spent M j → Exec.Spent c.cap j := by
    rintro j hj ⟨-, hle⟩
    omega
  have hspent : ∀ (j : Nat) (n : Int), Exec.Spent c.cap j →
      Exec.exceeded c.cap n = .unfinished ∨ M = c.cap := by
    rintro j n ⟨hpos, -⟩
    omega
  rcases runFresh_eq c { c with cap := M } src (· = .unfinished) rfl rfl (Nat.le_refl limit) hcap
    hspent with ⟨e, he, rfl⟩ | heq
  · exact absurd he hended
  · exact heq

end Run

end RobotMaze

import RobotMaze.Proofs.Run.Journey

/-!
# What a result means

Whatever a program does between its first and its last line, a run of it that returns a result has
loaded one maze, first of all, and has not run off the end of its program.

* `Session.Continues` — a journal that goes on without loading a maze, as it does with every move;
* `Exec.program_of_loader` — the loader is asked for one preset, the one of the first statement;
* `Run.loads_first_and_halts` — what a result guarantees.
-/

namespace RobotMaze

open Step

/-- The preset of an entry, if it says that a maze is loaded. -/
def Entry.preset? : Entry → Option PresetNumber
  | .loaded _ preset _ => some preset
  | _ => none

namespace Session

variable {s t u : Session}

/-- The journal of `t` goes on where that of `s` ends, and no maze is loaded. -/
def Continues (s t : Session) : Prop :=
  ∃ rest, t.journal.toList = s.journal.toList ++ rest ∧ ∀ e ∈ rest, e.preset? = none

theorem Continues.of_same (h : t.journal = s.journal) : s.Continues t :=
  ⟨[], by rw [h, List.append_nil], fun _ he => absurd he List.not_mem_nil⟩

theorem Continues.trans (h : s.Continues t) (h' : t.Continues u) : s.Continues u := by
  obtain ⟨rest, ht, hrest⟩ := h
  obtain ⟨rest', hu, hrest'⟩ := h'
  refine ⟨rest ++ rest', by rw [hu, ht, List.append_assoc], fun e he => ?_⟩
  rcases List.mem_append.1 he with he | he
  · exact hrest e he
  · exact hrest' e he

theorem Continues.push {e : Entry} (h : t.journal = s.journal.push e) (he : e.preset? = none) :
    s.Continues t := by
  refine ⟨[e], by rw [h, Array.toList_push], fun f hf => ?_⟩
  rw [List.mem_singleton.1 hf, he]

theorem continues_attempted (s : Session) (m : Maze) (a : Action) :
    s.Continues (s.attempted m a) := by
  unfold attempted
  cases m.perform a with
  | ok after => exact .push rfl rfl
  | error reason => exact .push rfl rfl

end Session

namespace Exec

variable {p : Program} {c c' : Config} {s t : Session}

/-! ## Journals of runs -/

theorem Move.continues (h : Move p s t) : s.Continues t := by
  cases h with
  | enter _ => exact .push rfl rfl
  | settle _ => exact .of_same rfl
  | attempt _ _ _ _ => exact s.continues_attempted _ _
  | assign _ _ _ => exact .push rfl rfl

theorem Journey.continues (h : Journey p s t) : s.Continues t :=
  h.keeps (fun hmove hs => hs.trans hmove.continues) (.of_same rfl)

theorem Finish.continues (h : Finish p s t) : s.Continues t := by
  cases h with
  | last _ _ => exact .push rfl rfl
  | opened _ _ _ _ _ => exact (s.continues_attempted _ _).trans (.push rfl rfl)

/-- A run that finishes has executed two lines, and it has a maze. -/
theorem Finish.executed (h : Finish p s t) (hs : s.Opened) : 2 ≤ t.executed ∧ t.maze.isSome := by
  cases h with
  | last _ _ =>
    obtain ⟨m, hm⟩ := hs.maze
    exact ⟨Nat.succ_le_succ hs.started, by simp [Session.entered, hm]⟩
  | @opened head a m _ _ _ _ hexecuted =>
    obtain ⟨after, hafter⟩ := (hs.attempted m a).maze
    refine ⟨?_, by simp [Session.noted, hafter]⟩
    show 2 ≤ (s.attempted m a).executed
    rw [Session.executed_attempted]
    exact hexecuted

/-! ## Other loaders -/

theorem kept_started : Kept p c fun s => 0 < s.executed where
  settle := fun _ hs => hs
  enter := fun _ _ _ => Nat.succ_pos _
  load := fun _ _ hs hzero => absurd hzero (Nat.ne_of_gt hs)
  attempt := fun a hs _ => by rwa [Session.executed_attempted]
  solve := fun _ hs => hs
  assign := fun _ hs _ _ => hs

/-- Two runs behind their first statements that do the same. -/
def started (p : Program) : Accord :=
  .abreast p (fun s t => t = s ∧ 0 < s.executed) fun e s f t => f = e ∧ t = s

/-- Behind the first statement the loader is not asked again. -/
theorem rangeIn_of_loader (hcap : c'.cap = c.cap) {limit steps : Nat} {start stop : Int}
    (hlow : 1 ≤ start) (hup : start ≤ p.size + 1) (hstop : stop ≤ p.size + 1)
    (hsteps : p.size + 1 < start + steps) (hs : 0 < s.executed) :
    rangeIn (Reader.fresh p) c' limit steps start stop s
      = rangeIn (Reader.fresh p) c limit steps start stop s := by
  have hsteady : Steady p c (fun s t => t = s ∧ 0 < s.executed) fun e s f t => f = e ∧ t = s :=
    kept_started.steady (fun _ => ⟨rfl, rfl⟩) fun _ => ⟨rfl, rfl⟩
  have hparallel : Parallel (started p) p p (Reader.fresh p) (Reader.fresh p) c c' :=
    hsteady.fresh fun hst hzero => absurd hzero (Nat.ne_of_gt hst.2)
  have hloops : Loops (started p) p (Reader.fresh p) (Reader.fresh p) c c' limit limit := by
    refine hparallel.loops (.equal fun s t hst => ⟨rfl, hst.1⟩) ?_ ?_
    · intro j _
      rw [hcap]
      exact id
    · intro j n hj
      rw [hcap]
      exact .inr ⟨hj, fun s t hst => ⟨rfl, hst.1⟩⟩
  have hmatches := hparallel.related_rangeIn hloops hlow hup hstop hsteps s s ⟨rfl, hs⟩
  exact hmatches.eq And.left id id

/-- A first statement that names no preset does not ask the loader. -/
theorem load_of_loader {n : Int} {head : Token} {args : List Token}
    (h : ∀ id k, head.kind = .load → args = [id] → id.kind = .preset k →
      c'.loader k = c.loader k) : load c' n head args = load c n head args := by
  by_cases hload : head.kind = .load
  · unfold load
    rw [hload]
    cases args with
    | nil => rfl
    | cons id more =>
      cases more with
      | cons extra more => rfl
      | nil =>
        dsimp only
        cases hid : id.kind with
        | preset k =>
          dsimp only
          rw [h id k hload rfl hid]
        | _ => rfl
  · rw [load_of_ne hload, load_of_ne hload]

/-- **A program asks its loader for one preset only**, the one that it opens. -/
theorem program_of_loader (hsize : 0 < p.size) (hcap : c'.cap = c.cap)
    (h : ∀ k, p.Opens k → c'.loader k = c.loader k) (limit : Nat) :
    program (Reader.fresh p) c' limit {} = program (Reader.fresh p) c limit {} := by
  rcases program_begins hsize with
    ⟨e, -, hprogram⟩ | ⟨n, head, args, last, steps, hblank, hts, hends, hle, hsteps, hprogram⟩
  · rw [hprogram, hprogram]
  · have hbounds := hends.bounds
    have hlow := (Program.bounds_of_tokens hts).1
    have hload : load c' n head args = load c n head args := by
      refine load_of_loader ?_
      rintro id k hkind rfl hid
      exact h k ⟨n, head, id, hts, hkind, hid, hblank⟩
    rw [hprogram, hprogram, hload]
    rcases load_cases c hts (({} : Session).entered n (Token.line (head :: args))) with
      ⟨e, -, hfails⟩ | ⟨id, k, m, -, -, -, -, hloads⟩
    · rw [bind_of_error hfails, bind_of_error hfails]
    · rw [bind_of_ok hloads, bind_of_ok hloads]
      exact rangeIn_of_loader hcap (by omega) (by omega) (by omega) (by omega) Nat.one_pos

end Exec

/-- A program opens one preset. -/
theorem Program.Opens.unique {p : Program} {k k' : PresetNumber} (h : p.Opens k)
    (h' : p.Opens k') : k = k' := by
  obtain ⟨n, head, id, hts, -, hid, hblank⟩ := h
  obtain ⟨n', head', id', hts', -, hid', hblank'⟩ := h'
  have hlow := (bounds_of_tokens hts).1
  have hlow' := (bounds_of_tokens hts').1
  rcases Int.lt_trichotomy n n' with hlt | rfl | hlt
  · cases hts.symm.trans (hblank' n hlow hlt)
  · cases hts.symm.trans hts'
    exact Kind.preset.inj (hid.symm.trans hid')
  · cases hts'.symm.trans (hblank n' hlow' hlt)

namespace Run

variable {c : Config} {src : Text} {o : Outcome}

/-- What is returned does not depend on other presets than the one that is opened. -/
theorem Returns.of_loader (h : Returns c src o) {loader : Loader}
    (hloader : ∀ k, (Program.ofSource src).Opens k → loader k = c.loader k) :
    Returns { c with loader := loader } src o := by
  obtain ⟨hended, limit, ho⟩ := returns_iff.1 h
  refine returns_iff.2 ⟨hended, limit, ?_⟩
  have hprogram : Exec.program (Reader.fresh (.ofSource src)) { c with loader := loader } limit {}
      = Exec.program (Reader.fresh (.ofSource src)) c limit {} := by
    refine Exec.program_of_loader (Program.size_pos src) ?_ hloader limit
    rfl
  rw [← ho, runFresh, runFresh, Outcome.ofStep, Outcome.ofStep, hprogram]

/-- **What a result guarantees.**  The first line with words is `LOAD` with a preset number, and the
last one is `END` alone.  The maze of this preset was loaded before anything else was done, and no
other maze was; what the loader has for other presets does not matter.  The run has a maze, has
executed two lines or more, and has halted. -/
theorem loads_first_and_halts {r : Result} (h : Returns c src o) (hr : o.result = .ok r) :
    ∃ (n last : Int) (k : PresetNumber) (m : Maze),
      ((Program.ofSource src).Reads n [Kind.load.text, (Kind.preset k).text] ∧
        ∀ j, 1 ≤ j → j < n → (Program.ofSource src).Reads j []) ∧
      ((Program.ofSource src).Reads last [Kind.close.text] ∧
        ∀ j, last < j → j ≤ (Program.ofSource src).size → (Program.ofSource src).Reads j []) ∧
      c.loader k = .ok m ∧
      (∃ words rest, o.session.journal.toList = .line n words :: .loaded n k m :: rest ∧
        ∀ e ∈ rest, e.preset? = none) ∧
      (∀ loader : Loader, loader k = c.loader k → Returns { c with loader := loader } src o) ∧
      r.maze.isSome ∧ 2 ≤ r.executed ∧ r.halted = true := by
  have hcourse : Course (.ofSource src) c o := by
    obtain ⟨-, limit, rfl⟩ := h
    exact course_run c limit src
  cases hcourse with
  | refused _ _ => cases hr
  | stopped _ _ _ => cases hr
  | @finished n last words k m s t hloads hm hends hjourney hfinish =>
    cases hr
    obtain ⟨head, id, hts, hkind, hid⟩ := hloads.words
    obtain ⟨close, hclose, hclosing⟩ := hends.close
    obtain ⟨hexecuted, hmaze⟩ := hfinish.executed (hjourney.opened (.opening n words k m))
    refine ⟨n, last, k, m, ⟨?_, ?_⟩, ⟨?_, ?_⟩, hm, ?_, ?_, hmaze, hexecuted, rfl⟩
    · have hkinds : [head, id].map Token.kind = [.load, .preset k] := by simp [hkind, hid]
      refine Program.reads_keywords hts hkinds ?_
      cases k <;> decide
    · intro j hlow hup
      exact Program.reads_of_tokens (hloads.blank j hlow hup)
    · have hkinds : [close].map Token.kind = [.close] := by simp [hclosing]
      exact Program.reads_keywords hclose hkinds (by decide)
    · intro j hlow hup
      exact Program.reads_of_tokens ((Program.last_eq_ok hends.isLast).blank j hlow hup)
    · obtain ⟨rest, hjournal, hrest⟩ := hjourney.continues.trans hfinish.continues
      exact ⟨words, rest, hjournal, hrest⟩
    · intro loader hloader
      refine h.of_loader fun k' hk' => ?_
      rw [hk'.unique hloads.opens, hloader]

/-- The robot that leaves the corridor has loaded it by its first line, and has halted. -/
theorem collector_loads_first_and_halts :
    ∃ o r, Returns Structured.corridor (Structured.collector.source .one) o ∧ o.result = .ok r ∧
      (∃ n k, (Program.ofSource (Structured.collector.source .one)).Reads n
        [Kind.load.text, (Kind.preset k).text]) ∧
      r.maze.isSome ∧ 2 ≤ r.executed ∧ r.halted = true := by
  obtain ⟨o, hhalt, hreturns⟩ := exists_returns_collector
  have hresult : o.result = .ok (summary true o.session) := by
    rw [Outcome.result, hhalt]
    rfl
  obtain ⟨n, last, k, m, ⟨hreads, -⟩, -, -, -, -, hguarantees⟩ :=
    loads_first_and_halts hreturns hresult
  exact ⟨o, _, hreturns, hresult, ⟨n, k, hreads⟩, hguarantees⟩

end Run

end RobotMaze

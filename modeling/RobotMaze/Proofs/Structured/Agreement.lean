import RobotMaze.Proofs.Structured.Simulation

/-!
# Runs agree with structured programs

The lines of a block are executed as its tree tells, whatever comes after them; so a whole run of
the source of a structured program ends if and only if the program does, and in the same way.

* `Code.executes` — the lines of a block realize what the block does;
* `Code.settles_program` — the results of all runs of a program;
* `Code.run_agrees` — the agreement of runs with the tree.
-/

namespace RobotMaze.Structured

open Behaviour Step

variable {p : Program} {c : Config} {last n : Int}

/-! ## Ranges of lines -/

/-- The execution of the lines `[start, stop)` for all numbers of rounds. -/
abbrev ranging (p : Program) (c : Config) (steps : Nat) (start stop : Int) (limit : Nat) :
    Step Flow :=
  Exec.rangeIn (Reader.fresh p) c limit steps start stop

theorem realizes_empty {steps : Nat} (hsteps : 1 ≤ steps) (n : Int) :
    Realizes .next (ranging p c steps n n) (exactly .goesOn) := by
  obtain ⟨s, rfl⟩ : ∃ s, steps = s + 1 := ⟨steps - 1, by omega⟩
  have hpure : ranging p c (s + 1) n n = fun _ => pure .next := by
    funext limit
    rw [ranging, Exec.rangeIn, if_neg (by omega)]
  rw [hpure]
  exact realizes_pure .next

/-- What follows the line `n` in a range. -/
def onward (p : Program) (c : Config) (steps : Nat) (n stop : Int) (limit : Nat) :
    Flow → Step Flow
  | .halt => pure .halt
  | .jump next => ranging p c steps next stop limit
  | .next => ranging p c steps (n + 1) stop limit

/-- A line that goes on to another line, and the range from there. -/
theorem realizes_step {steps : Nat} {stop next : Int} {exit : Flow} {b b' : Behaviour}
    (hstop : n < stop) (hexit : exit = .next ∧ next = n + 1 ∨ exit = .jump next)
    (hline : Realizes exit
      (fun limit => Exec.line (Reader.fresh p) c (ranging p c steps · · limit) limit n) b)
    (hrest : Realizes .next (ranging p c steps next stop) b') :
    Realizes .next (ranging p c (steps + 1) n stop) (b.andThen b') := by
  have hrange : ranging p c (steps + 1) n stop = fun limit =>
      Exec.line (Reader.fresh p) c (ranging p c steps · · limit) limit n
        >>= onward p c steps n stop limit := by
    funext limit
    rw [ranging, Exec.rangeIn]
    exact if_pos hstop
  rw [hrange]
  refine hline.bind ?_ fun _ => rfl
  rcases hexit with ⟨rfl, rfl⟩ | rfl
  · exact hrest
  · exact hrest

/-! ## Blocks -/

namespace Code

/-- Wherever the lines of a block stand, they realize what the block does and then what comes after
them. -/
def Executes (p : Program) (c : Config) (last : Int) (code : Code) : Prop :=
  ∀ {n next stop : Int} {extra steps : Nat} {b : Behaviour}, p.Holds n code.lines →
    n + code.height = next → next ≤ last → next ≤ stop →
    (∀ steps, extra ≤ steps → Realizes .next (ranging p c steps next stop) b) →
    code.height + extra ≤ steps →
    Realizes .next (ranging p c steps n stop) ((code.Runs c.cap n).andThen b)

/-- The lines of a block alone. -/
theorem Executes.alone {code : Code} (h : code.Executes p c last) (hcode : p.Holds n code.lines)
    (hn : n + code.height ≤ last) {steps : Nat} (hsteps : code.height + 1 ≤ steps) :
    Realizes .next (ranging p c steps n (n + code.height)) (code.Runs c.cap n) := by
  rw [← andThen_goesOn (code.Runs c.cap n)]
  exact h hcode rfl hn (Int.le_refl _) (fun _ hone => realizes_empty hone _) hsteps

theorem executes_done : done.Executes p c last := by
  intro n next stop extra steps b _ hnext _ _ hafter hsteps
  rw [show n = next from by simpa [height, lines] using hnext, Runs, goesOn_andThen]
  exact hafter steps (Nat.le_trans (Nat.le_add_left _ _) hsteps)

variable {rest : Code}

/-- A statement of one line that goes on with the next. -/
theorem executes_line {code : Code} {first : List Text} {b₀ : Int → Behaviour}
    (hlines : code.lines = first :: rest.lines)
    (hruns : ∀ n, code.Runs c.cap n = (b₀ n).andThen (rest.Runs c.cap (n + 1)))
    (hline : ∀ {n steps}, n < last → p.Reads n first → Realizes .next
      (fun limit => Exec.line (Reader.fresh p) c (ranging p c steps · · limit) limit n) (b₀ n))
    (hrest : rest.Executes p c last) : code.Executes p c last := by
  intro n next stop extra steps b hcode hnext hle hstop hafter hsteps
  have hheight : code.height = rest.height + 1 := by
    rw [height, hlines, List.length_cons, height]
  rw [hlines] at hcode
  rw [hheight] at hnext hsteps
  obtain ⟨hread, hlines'⟩ := hcode
  obtain ⟨s, rfl⟩ : ∃ s, steps = s + 1 := ⟨steps - 1, by omega⟩
  rw [hruns, andThen_assoc]
  refine realizes_step (by omega) (.inl ⟨rfl, rfl⟩) (hline (by omega) hread) ?_
  exact hrest hlines' (by omega) hle hstop hafter (by omega)

theorem executes_branch {yes : Code} (hlast : p.last = .ok last) (hyes : yes.Executes p c last)
    (hrest : rest.Executes p c last) (e : Phrase) : (branch e yes rest).Executes p c last := by
  intro n next stop extra steps b hcode hnext hle hstop hafter hsteps
  obtain ⟨hopen, hinner, hclose, hlines⟩ := holds_enclosed.1 hcode
  rw [height_branch] at hnext hsteps
  obtain ⟨s, rfl⟩ : ∃ s, steps = s + 1 := ⟨steps - 1, by omega⟩
  have hblock := Program.block_opening hlast hopen hinner hclose (by omega)
  rw [Runs, andThen_assoc]
  -- without an `OTHERWISE` there are no lines to pick if the condition is false
  refine realizes_step (by omega) (.inr rfl) (realizes_branch hlast (by omega) hopen hblock
    (hyes.alone hinner (by omega) (by omega)) (realizes_empty (by omega) _)) ?_
  exact hrest hlines (show n + 1 + (yes.height : Int) + 1 + rest.height = next by omega) hle hstop
    hafter (by omega)

theorem executes_choice {yes no : Code} (hlast : p.last = .ok last) (hyes : yes.Executes p c last)
    (hno : no.Executes p c last) (hrest : rest.Executes p c last) (e : Phrase) :
    (choice e yes no rest).Executes p c last := by
  intro n next stop extra steps b hcode hnext hle hstop hafter hsteps
  obtain ⟨hopen, hinner, h⟩ := holds_enclosed.1 hcode
  obtain ⟨hother, hinner', hclose, hlines⟩ := holds_enclosed.1 h
  rw [height_choice] at hnext hsteps
  obtain ⟨s, rfl⟩ : ∃ s, steps = s + 1 := ⟨steps - 1, by omega⟩
  have hblock := Program.block_choice hlast hopen hinner hother hinner' hclose (by omega)
  rw [Runs, andThen_assoc]
  refine realizes_step (by omega) (.inr rfl) (realizes_branch hlast (by omega) hopen hblock
    (hyes.alone hinner (by omega) (by omega)) (hno.alone hinner' (by omega) (by omega))) ?_
  exact hrest hlines
    (show n + 1 + (yes.height : Int) + 1 + no.height + 1 + rest.height = next by omega) hle hstop
    hafter (by omega)

theorem executes_loop {body : Code} (hlast : p.last = .ok last) (hbody : body.Executes p c last)
    (hrest : rest.Executes p c last) (e : Phrase) : (loop e body rest).Executes p c last := by
  intro n next stop extra steps b hcode hnext hle hstop hafter hsteps
  obtain ⟨hopen, hinner, hclose, hlines⟩ := holds_enclosed.1 hcode
  rw [height_loop] at hnext hsteps
  obtain ⟨s, rfl⟩ : ∃ s, steps = s + 1 := ⟨steps - 1, by omega⟩
  have hblock := Program.block_opening hlast hopen hinner hclose (by omega)
  rw [Runs, andThen_assoc]
  refine realizes_step (by omega) (.inr rfl) (realizes_loop hlast (by omega) hopen hblock
    (hbody.alone hinner (by omega) (by omega))) ?_
  exact hrest hlines (show n + 1 + (body.height : Int) + 1 + rest.height = next by omega) hle hstop
    hafter (by omega)

/-- **The lines of a block realize what the block does.** -/
theorem executes (hlast : p.last = .ok last) (code : Code) : code.Executes p c last := by
  induction code with
  | done => exact executes_done
  | act a rest ih => exact executes_line rfl (fun _ => rfl) (realizes_act hlast) ih
  | assign x e rest ih => exact executes_line rfl (fun _ => rfl) (realizes_assign hlast) ih
  | branch e yes rest ihYes ih => exact executes_branch hlast ihYes ih e
  | choice e yes no rest ihYes ihNo ih => exact executes_choice hlast ihYes ihNo ih e
  | loop e body rest ihBody ih => exact executes_loop hlast ihBody ih e

end Code

/-! ## Runs -/

/-- The last line halts, and nothing comes after it. -/
theorem realizes_last (hlast : p.last = .ok n) (h : p.Reads n [Kind.close.text]) {steps : Nat}
    (hsteps : 2 ≤ steps) :
    Realizes .next (ranging p c steps n (n + 1))
      (entering n [Kind.close.text] (exactly .halts)) := by
  obtain ⟨head, args, hts, -, hclose, hargs, -⟩ := h.cons
  obtain ⟨s, rfl⟩ : ∃ s, steps = s + 1 := ⟨steps - 1, by omega⟩
  intro w line
  have hline : ∀ limit, ranging p c (s + 1) n (n + 1) limit (w.session line)
      = .ok .halt ((w.enter n [Kind.close.text]).session n) := by
    intro limit
    rw [ranging, Exec.rangeIn, if_pos (by omega), bind_of_ok (line_last hlast hts w line),
      Token.literals, List.map_cons, hclose]
    rw [Token.literals] at hargs
    rw [hargs]
    rfl
  simp only [hline]
  exact settles_result (.halts _) n

variable (code : Code) (k : PresetNumber)

theorem ending_apply (s : Session) :
    Exec.ending (Reader.fresh (Program.ofSource (code.source k))) s
      = .ok (2 + code.height) s := by
  obtain ⟨-, -, hclose⟩ := code.holds_source k
  obtain ⟨head, args, hts, hkind, -, hargs, -⟩ := hclose.cons
  rw [Line.kindOf_text (by decide)] at hkind
  cases List.map_eq_nil_iff.1 hargs
  rw [Exec.ending, bind_of_ok (last_apply (code.last_source k) s), if_neg (by omega),
    bind_of_ok (tokens_apply hts s)]
  simp only [if_pos hkind]
  rfl

/-- The first line loads the maze. -/
theorem line_load {m : Maze} (hm : c.loader k = .ok m) (sub : Int → Int → Step Flow) (limit : Nat) :
    Exec.line (Reader.fresh (Program.ofSource (code.source k))) c sub limit 1 {}
      = .ok .next ((World.loaded k m).session 1) := by
  obtain ⟨hload, -, -⟩ := code.holds_source k
  obtain ⟨head, args, hts, hkind, hhead, hargs, hkinds⟩ := hload.cons
  rw [Line.kindOf_text (by decide)] at hkind
  obtain ⟨id, rfl, hid⟩ := List.map_eq_singleton_iff.1 hargs
  have hpreset : id.kind = .preset k := by
    rw [hkinds id List.mem_cons_self, hid]
    exact Line.kindOf_text (by cases k <;> decide)
  have hwords : Token.line [head, id]
      = Text.join [Text.space] [Kind.load.text, (Kind.preset k).text] := by
    rw [Token.line, Token.literals, List.map_cons, List.map_cons, hhead, hid]
    rfl
  rw [line_apply (code.last_source k) hts, hwords, if_pos rfl]
  simp only [Exec.load, hkind, hpreset, hm]
  rfl

/-- A program loads its maze on its first line and goes on with the second. -/
theorem program_apply {m : Maze} (hm : c.loader k = .ok m) (limit : Nat) :
    Exec.program (Reader.fresh (Program.ofSource (code.source k))) c limit {}
      = ranging (Program.ofSource (code.source k)) c (code.height + 3) 2 (2 + code.height + 1) limit
          ((World.loaded k m).session 1) := by
  have hsize : (Reader.fresh (Program.ofSource (code.source k))).size = code.height + 2 :=
    code.size_source k
  rw [Exec.program, bind_of_ok (ending_apply code k {}), Exec.range, hsize, Exec.rangeIn,
    if_pos (by omega), bind_of_ok (line_load code k hm _ limit)]
  rfl

/-- The runs of a program show how it ends. -/
theorem Code.settles_program {m : Maze} (hm : c.loader k = .ok m) :
    Settles .next
      (fun limit => Exec.program (Reader.fresh (Program.ofSource (code.source k))) c limit {})
      (code.Ends c.cap k m) := by
  obtain ⟨-, hcode, hclose⟩ := code.holds_source k
  have hlast := code.last_source k
  simp only [program_apply code k hm]
  exact code.executes hlast hcode rfl (Int.le_refl _) (by omega)
    (fun _ htwo => realizes_last hlast hclose htwo) (by omega) (World.loaded k m) 1

/-! ## Agreement -/

/-- The summary of a world. -/
def World.summary (w : World) (halted : Bool) : Run.Result where
  halted := halted
  solved := w.maze.isSolved
  maze := some w.maze
  env := w.env
  warnings := w.warnings.toList
  executed := w.entered + 1

/-- The summary of a program that came to a verdict, or the error. -/
def Verdict.summary : Verdict → Except Stop Run.Result
  | .goesOn w => .ok (w.summary false)
  | .halts w => .ok (w.summary true)
  | .fails e _ => .error (.failed e)

/-- The world of a verdict. -/
def Verdict.world : Verdict → World
  | .goesOn w => w
  | .halts w => w
  | .fails _ w => w

/-- A run has the result or the error that a verdict tells, and the same journal. -/
def Verdict.ShownBy (v : Verdict) (o : Run.Outcome) : Prop :=
  o.result = v.summary ∧ o.session.journal = v.world.journal

variable {code k}

theorem ending_of_unfinished {limit : Nat} (h : Unfinished
      (Exec.program (Reader.fresh (Program.ofSource (code.source k))) c limit {})) :
    (Run.run c limit (code.source k)).ending = .error .unfinished := by
  obtain ⟨s, hs⟩ := h
  rw [(Run.run_forgets c limit _).1, Run.runFresh, Run.Outcome.ofStep, hs]

theorem ending_of_result {limit : Nat} {v : Verdict} {line : Int}
    (h : Exec.program (Reader.fresh (Program.ofSource (code.source k))) c limit {}
      = v.result .next line) :
    (Run.run c limit (code.source k)).ending ≠ .error .unfinished := by
  rw [(Run.run_forgets c limit _).1, Run.runFresh, Run.Outcome.ofStep, h]
  cases v <;> simp [Verdict.result]

theorem shownBy_of_result {limit : Nat} {v : Verdict} {line : Int}
    (h : Exec.program (Reader.fresh (Program.ofSource (code.source k))) c limit {}
      = v.result .next line) :
    v.ShownBy (Run.run c limit (code.source k)) := by
  obtain ⟨hending, hbare, -⟩ := Run.run_forgets c limit (code.source k)
  -- what a summary and a journal show does not depend on what is remembered
  have hresult : ∀ o o' : Run.Outcome, o.ending = o'.ending → o.session.bare = o'.session →
      o.result = o'.result ∧ o.session.journal = o'.session.journal := by
    rintro ⟨ending, session⟩ ⟨_, _⟩ rfl rfl
    exact ⟨rfl, rfl⟩
  obtain ⟨hres, hjournal⟩ := hresult _ _ hending hbare
  rw [Verdict.ShownBy, hres, hjournal, Run.runFresh, Run.Outcome.ofStep, h]
  cases v with
  | goesOn w => exact ⟨rfl, rfl⟩
  | halts w => exact ⟨rfl, rfl⟩
  | fails e w => exact ⟨rfl, rfl⟩

/-- **Runs agree with the tree of a program.**  A run of the source of a structured program ends if
and only if the program does; with enough rounds it shows how the program ends, and it shows nothing
else with too few. -/
theorem Code.run_agrees (code : Code) (k : PresetNumber) (c : Config) (m : Maze)
    (hm : c.loader k = .ok m) :
    ((∃ limit, (Run.run c limit (code.source k)).ending ≠ .error .unfinished) ↔
        ∃ v, code.Ends c.cap k m v) ∧
      ∀ v, code.Ends c.cap k m v →
        (∃ enough, ∀ limit, enough ≤ limit → v.ShownBy (Run.run c limit (code.source k))) ∧
          ∀ limit, (Run.run c limit (code.source k)).ending ≠ .error .unfinished →
            v.ShownBy (Run.run c limit (code.source k)) := by
  have hruns := code.settles_program k hm
  have htold : ∀ limit, (Run.run c limit (code.source k)).ending ≠ .error .unfinished →
      ∃ v, code.Ends c.cap k m v ∧ v.ShownBy (Run.run c limit (code.source k)) := by
    intro limit hlimit
    rcases hruns.told limit with hun | ⟨v, hv, line, hline⟩
    · exact absurd (ending_of_unfinished hun) hlimit
    · exact ⟨v, hv, shownBy_of_result hline⟩
  refine ⟨⟨?_, ?_⟩, fun v hv => ⟨?_, ?_⟩⟩
  · rintro ⟨limit, hlimit⟩
    obtain ⟨v, hv, -⟩ := htold limit hlimit
    exact ⟨v, hv⟩
  · rintro ⟨v, hv⟩
    obtain ⟨enough, line, hline⟩ := hruns.reached v hv
    exact ⟨enough, ending_of_result (hline enough (Nat.le_refl _))⟩
  · obtain ⟨enough, line, hline⟩ := hruns.reached v hv
    exact ⟨enough, fun limit hlimit => shownBy_of_result (hline limit hlimit)⟩
  · intro limit hlimit
    obtain ⟨u, hu, hshown⟩ := htold limit hlimit
    rw [Code.ends_unique hv hu]
    exact hshown

/-- In the corridor the exit opens in the fourth iteration, after fourteen lines and with a warning
at the door; all runs with enough rounds show this. -/
theorem collector_run_agrees :
    ∃ m v, corridor.loader .one = .ok m ∧ collector.Ends 4 .one m v ∧
      v.summary.toOption.map (fun r => (r.halted, r.solved, r.executed, r.warnings))
        = some (true, true, 14, [⟨.pickKey, .notOnKey⟩]) ∧
      ∃ enough, ∀ limit, enough ≤ limit →
        v.ShownBy (Run.run corridor limit (collector.source .one)) := by
  have hrun : (Run.run corridor 5 (collector.source .one)).result.toOption.map
      (fun r => (r.halted, r.solved, r.executed, r.warnings))
        = some (true, true, 14, [⟨.pickKey, .notOnKey⟩]) := by
    decide +kernel
  have hended : (Run.run corridor 5 (collector.source .one)).ending ≠ .error .unfinished := by
    intro hun
    rw [Run.Outcome.result, hun] at hrun
    cases hrun
  obtain ⟨hends, hshows⟩ := Code.run_agrees collector .one corridor _ rfl
  obtain ⟨v, hv⟩ := hends.1 ⟨5, hended⟩
  refine ⟨_, v, rfl, hv, ?_, (hshows v hv).1⟩
  rw [← ((hshows v hv).2 5 hended).1]
  exact hrun

end RobotMaze.Structured

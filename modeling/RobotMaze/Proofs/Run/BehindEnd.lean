import RobotMaze.Proofs.Program.BehindEnd
import RobotMaze.Proofs.Run.Cap
import RobotMaze.Proofs.Run.Replay

/-!
# Runs do not look behind an `END`

A run skips the `END` of a block: it jumps behind the block, or it turns round before the `END`.  An
`END` that is executed nevertheless closes nothing, and the run fails for that, whatever stands
behind it.  So words behind an `END` show at most in the journal of a run that fails there, unless
the `END` is the last line, which is checked before anything is executed.

* `Exec.line_of_close` — an `END` that is executed ends the run;
* `Exec.related_rangeIn_sameButEnds` — ranges of lines do the same in programs that differ behind an
  `END`;
* `Run.run_ignores_words_behind_end` — and so do their runs.
-/

namespace RobotMaze

open Step

variable {p q : Program} {c : Config}

/-! ## What may differ -/

/-- The sessions are the same, but for the words of lines in their journals. -/
structure Session.SameDeeds (s t : Session) : Prop where
  rest : { t with journal := s.journal } = s
  events : t.events = s.events

theorem Session.SameDeeds.refl (s : Session) : s.SameDeeds s := ⟨rfl, rfl⟩

theorem Session.sameDeeds_entered (s : Session) (n : Int) (words words' : Text) :
    (s.entered n words).SameDeeds (s.entered n words') := by
  refine ⟨rfl, ?_⟩
  have hevents : ∀ words, (s.entered n words).events = s.events := fun words =>
    events_noted_of_none (s := { s with line := n, executed := s.executed + 1 }) rfl
  rw [hevents, hevents]

/-- Two runs that are the same until they fail. -/
def Accord.untilFailure (p : Program) : Accord :=
  .abreast p Eq fun e s f t => f = e ∧ s.SameDeeds t

namespace Exec

variable {n : Int} {sub : Int → Int → Step Flow} {limit : Nat}

theorem steady_untilFailure : Steady p c Eq fun e s f t => f = e ∧ s.SameDeeds t :=
  steady_eq (fun s _ _ => ⟨rfl, .refl s⟩) fun s _ _ => ⟨rfl, .refl s⟩

theorem parallel_untilFailure :
    Parallel (.untilFailure p) p p (Reader.fresh p) (Reader.fresh p) c c :=
  steady_untilFailure.fresh fun _ _ => rfl

/-! ## Lines -/

/-- **An `END` that is executed ends the run**, unless it is the last line: the run has not loaded
anything yet, or no block waits for the `END`. -/
theorem line_of_close {head : Token} {args : List Token} (hts : p.tokens n = .ok (head :: args))
    (hclose : head.kind = .close) (hlast : p.last ≠ .ok n) (s : Session) :
    line (Reader.fresh p) c sub limit n s
      = .error (.failed ⟨if s.executed = 0 then .loadNotFirst else .strayEnd, n, head.column⟩)
          (s.entered n (Token.line (head :: args))) := by
  by_cases hs : s.executed = 0
  · have hload : head.kind ≠ .load := by
      rw [hclose]
      decide
    rw [line_of_first hts hs, load_of_ne hload, if_pos hs]
    rfl
  · have htokens : (Reader.fresh p).tokens n s = .ok (head :: args) s := ofExcept_of_ok hts s
    have hnot : ∀ s, isLast (Reader.fresh p) n s = .ok false s := by
      intro s
      cases hl : p.last with
      | error e => exact isLast_of_error hl n s
      | ok last =>
        have hne : (n == last) = false := by
          rw [beq_eq_false_iff_ne]
          rintro rfl
          exact hlast hl
        rw [isLast_of_ok hl, hne]
    rw [line, bind_of_ok htokens, if_neg hs]
    show (if s.executed + 1 = 1 then _ else _ : Step Flow) (s.entered n _) = _
    rw [if_neg (by omega), bind_of_ok (hnot _)]
    simp only [statement, hclose]
    rfl

/-- A line with the same words does the same in both programs. -/
theorem line_sameButEnds (hpq : p.SameButEnds q) (hn : q.tokens n = p.tokens n) :
    line (Reader.fresh q) c sub limit n = line (Reader.fresh p) c sub limit n := by
  simp only [line, isLast, statement, branch, loop, assign, condition, Reader.fresh, hn, hpq.last,
    hpq.block]

theorem ending_sameButEnds (hpq : p.SameButEnds q) :
    ending (Reader.fresh q) = ending (Reader.fresh p) := by
  simp only [ending, Reader.fresh, hpq.last]
  cases hlast : p.last with
  | error e => rfl
  | ok last => simp only [Step.ofExcept, pure_bind, hpq.tokens_last hlast]

/-! ## Ranges and programs -/

/-- Ranges of lines do the same, or they fail in the same way. -/
theorem related_rangeIn_sameButEnds (hpq : p.SameButEnds q) {steps : Nat} {start stop : Int}
    (hlow : 1 ≤ start) (hup : start ≤ p.size + 1) (hstop : stop ≤ p.size + 1)
    (hsteps : p.size + 1 < start + steps) :
    Related (.untilFailure p) Eq (rangeIn (Reader.fresh p) c limit steps start stop)
      (rangeIn (Reader.fresh q) c limit steps start stop) := by
  induction steps generalizing start stop with
  | zero => omega
  | succ steps ih =>
    by_cases hlt : start < stop
    · -- every range from here on starts further down
      have hbelow : Below (.untilFailure p) start start
          (rangeIn (Reader.fresh p) c limit steps) (rangeIn (Reader.fresh q) c limit steps) := by
        rintro _ a _ b ⟨rfl, halow, haup⟩ ⟨rfl, -, hbup⟩ hlt -
        exact ih halow haup hbup (by omega)
      refine related_rangeIn_succ hlt hlt ⟨rfl, by omega, by omega⟩ ⟨rfl, by omega, hstop⟩ hbelow ?_
      rcases hpq.tokens start with hsame | ⟨hlast, head, args, args', hclose, hts, hts'⟩
      · rw [line_sameButEnds hpq hsame]
        refine parallel_untilFailure.related_line ⟨rfl, hlow, by omega⟩ hbelow ?_
        intro head args head' args' hts hts' hkind
        cases hts.symm.trans hts'
        exact parallel_untilFailure.related_loop_of_below
          (.equal fun s t hst => ⟨rfl, hst ▸ .refl s⟩) (fun j _ => id)
          (fun j n hj => .inr ⟨hj, fun s t hst => ⟨rfl, hst ▸ .refl s⟩⟩) hts hkind hbelow
      · -- the words of the two lines differ, and neither of the runs gets past them
        rintro s _ rfl
        rw [line_of_close hts hclose hlast, line_of_close hts' hclose (by rwa [hpq.last])]
        exact .inr ⟨rfl, s.sameDeeds_entered _ _ _⟩
    · rw [rangeIn, rangeIn, if_neg hlt, if_neg hlt]
      exact related_pure rfl

/-- Programs do the same, or they fail in the same way. -/
theorem related_program_sameButEnds (hpq : p.SameButEnds q) (limit : Nat) :
    Related (.untilFailure p) Eq (program (Reader.fresh p) c limit)
      (program (Reader.fresh q) c limit) := by
  have hending := (parallel_untilFailure (p := p) (c := c)).related_ending
    (fun {s t} _ _ hst => ⟨rfl, hst ▸ .refl s⟩) (steady_untilFailure (c := c)).related_last
  rw [program, program, ending_sameButEnds hpq]
  refine hending.bind ?_
  rintro last _ ⟨rfl, hlast⟩
  have hle := (Program.last_eq_ok hlast).le
  rw [range, range, show (Reader.fresh q).size = (Reader.fresh p).size from hpq.size]
  exact related_rangeIn_sameButEnds hpq (by omega) (by omega) (by omega)
    (by simp only [Reader.fresh]; omega)

/-- A program that comes to its end is closed by its last line. -/
theorem ends_of_ok {s t : Session} {flow : Flow}
    (h : program (Reader.fresh p) c limit s = .ok flow t) : ∃ last, p.Ends last := by
  rcases ending_fresh p with ⟨e, -, hending⟩ | ⟨-, hending⟩ | ⟨last, hends, -⟩
  · rw [program, bind_of_error (hending s)] at h
    cases h
  · rw [program, bind_of_error (hending s)] at h
    cases h
  · exact ⟨last, hends⟩

end Exec

/-! ## Runs -/

namespace Run

/-- A run that comes to its end is the same in both programs, and a run that fails does so for the
same reason after the same deeds. -/
theorem runFresh_sameButEnds (c : Config) (limit : Nat) {src src' : Text}
    (h : (Program.ofSource src).SameButEnds (Program.ofSource src')) :
    (∃ flow last, (runFresh c limit src).ending = .ok flow ∧ (Program.ofSource src).Ends last ∧
        runFresh c limit src' = runFresh c limit src) ∨
      ∃ e, (runFresh c limit src).ending = .error e ∧ (runFresh c limit src').ending = .error e ∧
        (runFresh c limit src).session.SameDeeds (runFresh c limit src').session := by
  have hmatches := Exec.related_program_sameButEnds (c := c) h limit {} {} rfl
  unfold runFresh Outcome.ofStep
  revert hmatches
  cases hrun : Exec.program (Reader.fresh (Program.ofSource src)) c limit {} with
  | ok flow s =>
    obtain ⟨last, hends⟩ := Exec.ends_of_ok hrun
    cases Exec.program (Reader.fresh (Program.ofSource src')) c limit {} with
    | ok flow' t =>
      rintro ⟨rfl, rfl⟩
      exact .inl ⟨flow, last, rfl, hends, rfl⟩
    | error f t => exact False.elim
  | error e s =>
    cases Exec.program (Reader.fresh (Program.ofSource src')) c limit {} with
    | ok flow' t => exact False.elim
    | error f t =>
      rintro (hexcused | ⟨rfl, hdeeds⟩)
      · exact hexcused.elim
      · exact .inr ⟨_, rfl, rfl, hdeeds⟩

/-- **What stands behind an `END` is not looked at, except on the last line.**  Take two sources
that differ only behind an `END` before their last line.  A block is closed by the same `END` in
both of them, the one that the depth tells, whether or not it stands alone on its line.  Their runs
end in the same way after the same deeds.  If the runs do not fail, they are the same in all they
do, and the `END` of the last line does stand alone. -/
theorem run_ignores_words_behind_end (c : Config) (limit : Nat) {src src' : Text}
    (h : (Program.ofSource src).SameButEnds (Program.ofSource src')) :
    (∀ n, (Program.ofSource src').block n = (Program.ofSource src).block n) ∧
    (∀ n b, (Program.ofSource src).block n = .ok b → ∃ last,
      (Program.ofSource src).last = .ok last ∧ (Program.ofSource src).Closes n last b.close) ∧
    (run c limit src').ending = (run c limit src).ending ∧
    (run c limit src).bare.session.SameDeeds (run c limit src').bare.session ∧
    ∀ flow, (run c limit src).ending = .ok flow →
      (run c limit src').bare = (run c limit src).bare ∧
        ∃ last, (Program.ofSource src).Ends last ∧ (Program.ofSource src').Ends last := by
  refine ⟨h.block, fun n b => Program.closes_of_block, ?_⟩
  have hending : ∀ src, (run c limit src).ending = (runFresh c limit src).ending :=
    fun src => (run_forgets c limit src).1
  rw [hending, hending, bare_run, bare_run]
  rcases runFresh_sameButEnds c limit h with
    ⟨flow, last, -, hends, hsame⟩ | ⟨e, hfails, hfails', hdeeds⟩
  · rw [hsame]
    exact ⟨rfl, .refl _, fun _ _ => ⟨rfl, last, hends, h.ends hends⟩⟩
  · refine ⟨hfails'.trans hfails.symm, hdeeds, fun flow hflow => ?_⟩
    rw [hfails] at hflow
    cases hflow

/-- Tells whether a key lies on the way. -/
def terse : Text :=
  utf8 ("LOAD 1\nWHILE FRONT_IS_CLEAR\n\tMOVE_FORWARD\n\tIF ON_KEY\n\t\tX := TRUE\n"
    ++ "\tOTHERWISE\n\t\tX := FALSE\n\tEND\nEND\nEND")

/-- The same program, in which each `END` of a block says what it closes. -/
def wordy : Text :=
  utf8 ("LOAD 1\nWHILE FRONT_IS_CLEAR\n\tMOVE_FORWARD\n\tIF ON_KEY\n\t\tX := TRUE\n"
    ++ "\tOTHERWISE\n\t\tX := FALSE\n\tEND IF ON_KEY\nEND WHILE\nEND")

/-- In the corridor both programs do the same. -/
theorem wordy_run_ignores_words_behind_end :
    (Program.ofSource terse).SameButEnds (Program.ofSource wordy) ∧
      (Program.ofSource wordy).block 2 = (Program.ofSource terse).block 2 ∧
      (run Structured.corridor 5 terse).ending = .ok .halt ∧
      (run Structured.corridor 5 wordy).bare = (run Structured.corridor 5 terse).bare := by
  have hsame : (Program.ofSource terse).SameButEnds (Program.ofSource wordy) := by decide +kernel
  have hhalt : (run Structured.corridor 5 terse).ending = .ok .halt := by decide +kernel
  obtain ⟨hblock, -, -, -, hok⟩ := run_ignores_words_behind_end Structured.corridor 5 hsame
  exact ⟨hsame, hblock 2, hhalt, (hok .halt hhalt).1⟩

/-- A block may be closed by an `END` with further words on its line, and a run that goes through
the block comes to its end. -/
theorem end_with_words_closes_block :
    (Program.ofSource wordy).head? 4 = some .branch ∧
      (Program.ofSource wordy).block 4 = .ok ⟨4, some 6, 8⟩ ∧
      (Program.ofSource wordy).Reads 8 [utf8 "END", utf8 "IF", utf8 "ON_KEY"] ∧
      (run Structured.corridor 5 wordy).ending = .ok .halt ∧
      (run Structured.corridor 5 wordy).session.env.get? "X" = some false := by
  have hwords : ((Program.ofSource wordy).tokens 8).toOption.map Token.literals
      = some [utf8 "END", utf8 "IF", utf8 "ON_KEY"] := by decide +kernel
  refine ⟨by decide +kernel, by decide +kernel, ?_, by decide +kernel, by decide +kernel⟩
  cases hts : (Program.ofSource wordy).tokens 8 with
  | error e =>
    rw [hts] at hwords
    cases hwords
  | ok ts =>
    rw [hts] at hwords
    rw [← Option.some.inj hwords]
    exact Program.reads_of_tokens hts

end Run

end RobotMaze

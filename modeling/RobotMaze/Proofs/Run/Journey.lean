import RobotMaze.Proofs.Expr.Terms
import RobotMaze.Proofs.Run.Opening
import RobotMaze.Proofs.Structured.Simulation
import Mathlib.Logic.Relation

/-!
# What a run does

Behind its first statement a run makes moves of four sorts: it enters a line, it turns to the line
of a condition, the robot tries an action, or a variable is set.  It finishes on the last line or
with the way out, or else it stops on the way, because of an error in the program or because a loop
was granted too few rounds.

* `Exec.Move`, `Exec.Finish` — the moves of a run, and how it can finish;
* `Exec.proceeds_rangeIn` — lines are executed by moves, and the last line is never passed;
* `Run.course_run` — so a run is refused before it has a maze, or it makes a journey.
-/

namespace RobotMaze

open Step

/-! ## Results of steps -/

namespace Step

variable {α β : Type} {x : Step α} {s t : Session} {goes : α → Session → Prop}
  {stops : Stop → Session → Prop}

/-- From a session a step goes on as `goes` tells, or it stops as `stops` tells. -/
def Yields (x : Step α) (s : Session) (goes : α → Session → Prop)
    (stops : Stop → Session → Prop) : Prop :=
  match x s with
  | .ok a t => goes a t
  | .error e t => stops e t

theorem yields_of_ok {a : α} (h : x s = .ok a t) (hgoes : goes a t) : Yields x s goes stops := by
  unfold Yields
  rw [h]
  exact hgoes

theorem yields_of_error {e : Stop} (h : x s = .error e t) (hstops : stops e t) :
    Yields x s goes stops := by
  unfold Yields
  rw [h]
  exact hstops

theorem Yields.cases (h : Yields x s goes stops) :
    (∃ a t, x s = .ok a t ∧ goes a t) ∨ ∃ e t, x s = .error e t ∧ stops e t := by
  unfold Yields at h
  cases hx : x s with
  | ok a t =>
    rw [hx] at h
    exact .inl ⟨a, t, rfl, h⟩
  | error e t =>
    rw [hx] at h
    exact .inr ⟨e, t, rfl, h⟩

end Step

namespace Session

/-- A session behind the first statement. -/
structure Opened (s : Session) : Prop where
  started : 0 < s.executed
  maze : ∃ m, s.maze = some m

theorem Opened.attempted {s : Session} (h : s.Opened) (m : Maze) (a : Action) :
    (s.attempted m a).Opened := by
  unfold Session.attempted
  cases m.perform a with
  | ok after => exact ⟨h.started, after, rfl⟩
  | error reason => exact ⟨h.started, h.maze⟩

theorem executed_attempted (s : Session) (m : Maze) (a : Action) :
    (s.attempted m a).executed = s.executed := by
  unfold Session.attempted
  cases m.perform a <;> rfl

end Session

namespace Exec

variable {p : Program} {c : Config} {n last : Int} {head : Token} {args : List Token}
  {s t u : Session}

/-! ## Moves -/

/-- A move of a run behind its first statement. -/
inductive Move (p : Program) : Session → Session → Prop where
  /-- A line with words is entered. -/
  | enter {s : Session} {n : Int} {head : Token} {args : List Token}
      (hts : p.tokens n = .ok (head :: args)) :
      Move p s (s.entered n (Token.line (head :: args)))
  /-- The condition of a line is looked at. -/
  | settle {s : Session} {n : Int} {head : Token} {args : List Token}
      (hts : p.tokens n = .ok (head :: args)) : Move p s { s with line := n }
  /-- The robot tries the action on its line, and the way out stays closed. -/
  | attempt {s : Session} {head : Token} {a : Action} {m : Maze}
      (hts : p.tokens s.line = .ok [head]) (hkind : head.kind = .action a) (hm : s.maze = some m)
      (hopens : m.opensBy a = false) : Move p s (s.attempted m a)
  /-- A variable is set. -/
  | assign {s : Session} {n : Int} {head : Token} {args : List Token}
      (hts : p.tokens n = .ok (head :: args)) (hkind : head.kind = .ident) (value : Bool) :
      Move p s (s.assigned n head.literal value)

/-- How a run finishes. -/
inductive Finish (p : Program) : Session → Session → Prop where
  /-- The last line is entered. -/
  | last {s : Session} {n : Int} {head : Token} {args : List Token} (hlast : p.last = .ok n)
      (hts : p.tokens n = .ok (head :: args)) :
      Finish p s (s.entered n (Token.line (head :: args)))
  /-- The robot opens the way out with the action on its line, which is not the first line. -/
  | opened {s : Session} {head : Token} {a : Action} {m : Maze}
      (hts : p.tokens s.line = .ok [head]) (hkind : head.kind = .action a) (hm : s.maze = some m)
      (hopens : m.opensBy a = true) (hexecuted : 1 < s.executed) :
      Finish p s ((s.attempted m a).noted (.solved s.line))

/-- Any number of moves. -/
abbrev Journey (p : Program) : Session → Session → Prop := Relation.ReflTransGen (Move p)

theorem Move.opened (h : Move p s t) (hs : s.Opened) : t.Opened := by
  cases h with
  | enter _ => exact ⟨Nat.succ_pos _, hs.maze⟩
  | settle _ => exact ⟨hs.started, hs.maze⟩
  | attempt _ _ _ _ => exact hs.attempted _ _
  | assign _ _ _ => exact ⟨hs.started, hs.maze⟩

/-- What every move keeps, a journey keeps. -/
theorem Journey.keeps {holds : Session → Prop} (h : Journey p s t)
    (hmove : ∀ {s t}, Move p s t → holds s → holds t) (hs : holds s) : holds t := by
  induction h with
  | refl => exact hs
  | tail _ htail ih => exact hmove htail ih

theorem Journey.opened (h : Journey p s t) (hs : s.Opened) : t.Opened := h.keeps Move.opened hs

/-- A flow at the end of a journey; a run that halts finishes there. -/
def Goes (p : Program) (s : Session) : Flow → Session → Prop
  | .halt, t => ∃ u, Journey p s u ∧ Finish p u t
  | _, t => Journey p s t

/-- To stop at the end of a journey. -/
structure Stops (p : Program) (s : Session) (e : Stop) (t : Session) : Prop where
  journey : Journey p s t
  reason : e = .unfinished ∨ ∃ err, e = .failed err ∧ p.Reports err

theorem goes_of_ne {flow : Flow} (hflow : flow ≠ .halt) : Goes p s flow t ↔ Journey p s t := by
  cases flow with
  | halt => exact absurd rfl hflow
  | _ => exact Iff.rfl

theorem Goes.after {flow : Flow} (h : Goes p t flow u) (hst : Journey p s t) :
    Goes p s flow u := by
  cases flow with
  | halt =>
    obtain ⟨v, hjourney, hfinish⟩ := h
    exact ⟨v, hst.trans hjourney, hfinish⟩
  | next => exact hst.trans h
  | jump line => exact hst.trans h

theorem Stops.after {e : Stop} (h : Stops p t e u) (hst : Journey p s t) : Stops p s e u :=
  ⟨hst.trans h.journey, h.reason⟩

theorem stops_of_blames {e : Stop} (h : p.Blames e) : Stops p s e s := by
  obtain ⟨err, rfl, -, hreports⟩ := h
  exact ⟨.refl, .inr ⟨err, rfl, hreports⟩⟩

/-! ## Steps that make journeys -/

/-- A step that finds something out on the way. -/
def Consults {α : Type} (p : Program) (found : α → Prop) (x : Step α) : Prop :=
  ∀ s : Session, s.Opened → Yields x s (fun a t => found a ∧ Journey p s t) (Stops p s)

/-- A step that executes something. -/
def Proceeds (p : Program) (onto : Flow → Prop) (x : Step Flow) : Prop :=
  ∀ s : Session, s.Opened → Yields x s (fun flow t => onto flow ∧ Goes p s flow t) (Stops p s)

section

variable {α : Type} {found : α → Prop} {onto onto' : Flow → Prop}

theorem Proceeds.mono {x : Step Flow} (hx : Proceeds p onto x)
    (honto : ∀ flow, onto flow → onto' flow) : Proceeds p onto' x := by
  intro s hs
  rcases (hx s hs).cases with ⟨flow, t, ht, hflow, hgoes⟩ | ⟨e, t, ht, hstops⟩
  · exact yields_of_ok ht ⟨honto flow hflow, hgoes⟩
  · exact yields_of_error ht hstops

theorem consults_ofExcept {x : Except Stop α} (hx : ∀ e, x = .error e → p.Blames e) :
    Consults p (fun a => x = .ok a) (Step.ofExcept x) := by
  intro s _
  cases x with
  | ok a => exact yields_of_ok rfl ⟨rfl, .refl⟩
  | error e => exact yields_of_error rfl (stops_of_blames (hx e rfl))

theorem proceeds_pure {flow : Flow} (hflow : flow ≠ .halt) (honto : onto flow) :
    Proceeds p onto (pure flow) :=
  fun _ _ => yields_of_ok rfl ⟨honto, (goes_of_ne hflow).2 .refl⟩

theorem proceeds_fail {fault : Fault} {k : Int} (h : p.Reports ⟨fault, n, k⟩) :
    Proceeds p onto (Step.fail fault n k) :=
  fun _ _ => yields_of_error rfl ⟨.refl, .inr ⟨_, rfl, h⟩⟩

theorem Consults.bind {x : Step α} {f : α → Step Flow} (hx : Consults p found x)
    (hf : ∀ a, found a → Proceeds p onto (f a)) : Proceeds p onto (x >>= f) := by
  intro s hs
  rcases (hx s hs).cases with ⟨a, t, ht, ha, hst⟩ | ⟨e, t, ht, hstops⟩
  · rcases (hf a ha t (hst.opened hs)).cases with ⟨flow, u, hu, honto, hgoes⟩ | ⟨e, u, hu, hstops⟩
    · exact yields_of_ok ((bind_of_ok ht).trans hu) ⟨honto, hgoes.after hst⟩
    · exact yields_of_error ((bind_of_ok ht).trans hu) (hstops.after hst)
  · exact yields_of_error (bind_of_error ht) hstops

/-- What has halted stays halted; everything else may be followed by more. -/
theorem Proceeds.bind {x : Step Flow} {f : Flow → Step Flow} (hx : Proceeds p onto x)
    (hhalt : f .halt = pure .halt) (honto : onto' .halt)
    (hf : ∀ flow, flow ≠ .halt → onto flow → Proceeds p onto' (f flow)) :
    Proceeds p onto' (x >>= f) := by
  intro s hs
  rcases (hx s hs).cases with ⟨flow, t, ht, hflow, hgoes⟩ | ⟨e, t, ht, hstops⟩
  · by_cases hne : flow = .halt
    · subst hne
      refine yields_of_ok ?_ ⟨honto, hgoes⟩
      rw [bind_of_ok ht, hhalt]
      rfl
    · have hst := (goes_of_ne hne).1 hgoes
      rcases (hf flow hne hflow t (hst.opened hs)).cases with
        ⟨flow', u, hu, honto', hgoes'⟩ | ⟨e, u, hu, hstops⟩
      · exact yields_of_ok ((bind_of_ok ht).trans hu) ⟨honto', hgoes'.after hst⟩
      · exact yields_of_error ((bind_of_ok ht).trans hu) (hstops.after hst)
  · exact yields_of_error (bind_of_error ht) hstops

end

/-! ## Statements -/

theorem consults_condition {us : List Token} (hts : p.tokens n = .ok (head :: args))
    (hus : us ⊆ head :: args) :
    Consults p (fun _ => True) (condition (Reader.fresh p) n us) := by
  intro s hs
  obtain ⟨m, hm⟩ := hs.maze
  have hsettle : Journey p s { s with line := n } := .single (.settle hts)
  have happly := condition_apply (Reader.fresh p) n us s
  cases hread : Expr.ofTokens us n with
  | error err =>
    have hexpr : (Reader.fresh p).expr n us s = .error (.failed err) s := by
      simp only [Reader.fresh, hread]
      rfl
    rw [hexpr] at happly
    refine yields_of_error happly (stops_of_blames (Program.ofTokens_eq_error hts hus ?_))
    rw [hread]
    rfl
  | ok e =>
    have hexpr : (Reader.fresh p).expr n us s = .ok e s := by
      simp only [Reader.fresh, hread]
      rfl
    rw [hexpr] at happly
    dsimp only at happly
    cases hvalue : e.eval { s.toScene with line := n } with
    | ok value =>
      rw [hvalue] at happly
      exact yields_of_ok happly ⟨trivial, hsettle⟩
    | error err =>
      rw [hvalue] at happly
      have hscene : ({ s.toScene with line := n } : Scene).maze = some m := hm
      obtain ⟨x, rfl⟩ := (Expr.readable_of_ofTokens hread).eval_eq_error hscene hvalue
      exact yields_of_error happly ⟨hsettle, .inr ⟨_, rfl, Program.reports_line hts rfl⟩⟩

/-- Where a run may go on behind the line `n`: below it, and not behind the last line. -/
def Onto (last n : Int) : Flow → Prop
  | .next => n ≠ last
  | .jump a => n < a ∧ a ≤ last
  | .halt => True

theorem proceeds_assign (hts : p.tokens n = .ok (head :: args)) (hkind : head.kind = .ident)
    (hn : n ≠ last) : Proceeds p (Onto last n) (assign (Reader.fresh p) n (head :: args)) := by
  have hbad : Proceeds p (Onto last n) (Step.fail .malformedAssignment n head.column) :=
    proceeds_fail (Program.reports_word hts List.mem_cons_self rfl)
  cases args with
  | nil => exact hbad
  | cons op more =>
    cases more with
    | nil => exact hbad
    | cons first more =>
      simp only [assign]
      split
      · have hus : first :: more ⊆ head :: op :: first :: more := by
          intro t ht
          exact List.mem_cons_of_mem _ (List.mem_cons_of_mem _ ht)
        refine (consults_condition hts hus).bind fun value _ s _ => ?_
        exact yields_of_ok rfl ⟨hn, .single (.assign hts hkind value)⟩
      · exact hbad

/-- The lines below `n` are executed by moves. -/
def ProceedsBelow (p : Program) (n : Int) (sub : Int → Int → Step Flow) : Prop :=
  ∀ {a b : Int}, n < a → b ≤ p.size + 1 → Proceeds p (fun _ => True) (sub a b)

variable {sub : Int → Int → Step Flow} {limit : Nat}

/-- Behind a block a run is below the line that opened it. -/
theorem onto_behind (hlast : p.last = .ok last) {b : Block} (hb : p.block n = .ok b) :
    Onto last n (.jump (b.close + 1)) ∧ b.close ≤ p.size := by
  obtain ⟨last', -, hlast', -, hclose⟩ := Program.block_eq_ok hb
  cases hlast.symm.trans hlast'
  have hle := (Program.last_eq_ok hlast).le
  have hlt := (Program.block_order hb).2.1
  exact ⟨⟨by omega, by omega⟩, by omega⟩

theorem proceeds_branch (hlast : p.last = .ok last) (hts : p.tokens n = .ok (head :: args))
    (hsub : ProceedsBelow p n sub) :
    Proceeds p (Onto last n) (branch (Reader.fresh p) sub n args) := by
  refine (consults_ofExcept fun e => Program.block_eq_error hts).bind fun b hb => ?_
  obtain ⟨honto, hclose⟩ := onto_behind hlast hb
  refine (consults_condition hts (List.subset_cons_self head args)).bind fun value _ => ?_
  obtain ⟨hlow, -, hup, -⟩ := Program.closed_chosen hb value
  refine (hsub hlow (by omega)).bind rfl trivial fun flow hflow _ => ?_
  cases flow with
  | halt => exact absurd rfl hflow
  | next => exact proceeds_pure (by nofun) honto
  | jump line => exact proceeds_pure (by nofun) honto

/-- Rounds of a loop are moves if its condition and its body are. -/
theorem proceeds_rounds {test : Step Bool} {body : Step Flow} {exit : Flow} {cap : Int}
    {onto : Flow → Prop} (htest : Consults p (fun _ => True) test)
    (hbody : Proceeds p (fun _ => True) body) (hexit : exit ≠ .halt) (honto : onto exit)
    (hhalt : onto .halt) (hreports : p.Reports ⟨.loopExceeded cap, n, 0⟩) (granted i : Nat) :
    Proceeds p onto (rounds test body exit cap n granted i) := by
  induction granted generalizing i with
  | zero => exact fun s _ => yields_of_error rfl ⟨.refl, .inl rfl⟩
  | succ granted ih =>
    refine htest.bind fun value _ => ?_
    cases value with
    | false => exact proceeds_pure hexit honto
    | true =>
      simp only [if_true]
      split
      · exact proceeds_fail hreports
      · refine hbody.bind rfl hhalt fun flow hflow _ => ?_
        cases flow with
        | halt => exact absurd rfl hflow
        | next => exact ih (i + 1)
        | jump line => exact ih (i + 1)

theorem proceeds_loop (hlast : p.last = .ok last) (hts : p.tokens n = .ok (head :: args))
    (hsub : ProceedsBelow p n sub) :
    Proceeds p (Onto last n) (loop (Reader.fresh p) c sub limit n args) := by
  refine (consults_ofExcept fun e => Program.block_eq_error hts).bind fun b hb => ?_
  obtain ⟨honto, hclose⟩ := onto_behind hlast hb
  exact proceeds_rounds (consults_condition hts (List.subset_cons_self head args))
    (hsub (Int.lt_succ n) (by omega)) (by nofun) honto trivial (Program.reports_line hts rfl)
    limit 0

/-- The robot tries the action on its line. -/
theorem yields_action {a : Action} (hts : p.tokens n = .ok [head]) (hkind : head.kind = .action a)
    (hn : n ≠ last) (hs : s.Opened) (hline : s.line = n) (hexecuted : 1 < s.executed) :
    Yields (statement (Reader.fresh p) c sub limit n head []) s
      (fun flow t => Onto last n flow ∧ Goes p s flow t) (Stops p s) := by
  subst hline
  obtain ⟨m, hm⟩ := hs.maze
  simp only [statement, hkind]
  have hact := act_of_some hm a
  cases hopens : m.opensBy a with
  | true =>
    rw [hopens] at hact
    exact yields_of_ok (bind_of_ok hact) ⟨trivial, s, .refl, .opened hts hkind hm hopens hexecuted⟩
  | false =>
    rw [hopens] at hact
    exact yields_of_ok (bind_of_ok hact) ⟨hn, .single (.attempt hts hkind hm hopens)⟩

/-- A statement that is not the first on the line that was just entered. -/
theorem yields_statement (hlast : p.last = .ok last) (hts : p.tokens n = .ok (head :: args))
    (hn : n ≠ last) (hsub : ProceedsBelow p n sub) (hs : s.Opened) (hline : s.line = n)
    (hexecuted : 1 < s.executed) :
    Yields (statement (Reader.fresh p) c sub limit n head args) s
      (fun flow t => Onto last n flow ∧ Goes p s flow t) (Stops p s) := by
  have hfail : ∀ {fault : Fault} {t : Token}, t ∈ head :: args → fault.isGuard = false →
      Proceeds p (Onto last n) (Step.fail fault n t.column) :=
    fun ht hfault => proceeds_fail (Program.reports_word hts ht hfault)
  cases hkind : head.kind with
  | action a =>
    cases args with
    | nil => exact yields_action hts hkind hn hs hline hexecuted
    | cons extra more =>
      simp only [statement, hkind]
      exact hfail (by simp) rfl s hs
  | branch =>
    simp only [statement, hkind]
    exact proceeds_branch hlast hts hsub s hs
  | loop =>
    simp only [statement, hkind]
    exact proceeds_loop hlast hts hsub s hs
  | ident =>
    simp only [statement, hkind]
    exact proceeds_assign hts hkind hn s hs
  | _ =>
    simp only [statement, hkind]
    exact hfail List.mem_cons_self rfl s hs

/-! ## Lines and ranges -/

theorem proceeds_line (hlast : p.last = .ok last) (hlow : 1 ≤ n) (hup : n ≤ p.size)
    (hsub : ProceedsBelow p n sub) :
    Proceeds p (Onto last n) (line (Reader.fresh p) c sub limit n) := by
  intro s hs
  cases hts : p.tokens n with
  | error e =>
    exact yields_of_error (line_of_fault hts)
      (stops_of_blames (Program.tokens_eq_error hlow hup hts))
  | ok ts =>
    cases ts with
    | nil =>
      have hn : n ≠ last := by
        rintro rfl
        obtain ⟨head, args, hwords⟩ := (Program.last_eq_ok hlast).words (by omega)
        cases hts.symm.trans hwords
      exact yields_of_ok (line_of_blank hts) ⟨hn, .refl⟩
    | cons head args =>
      have hstarted : s.executed + 1 ≠ 1 := Nat.ne_of_gt (Nat.succ_lt_succ hs.started)
      have hline : line (Reader.fresh p) c sub limit n s = _ := Structured.line_apply hlast hts s
      rw [if_neg hstarted] at hline
      have henter : Move p s (s.entered n (Token.line (head :: args))) := .enter hts
      by_cases hn : n = last
      · rw [if_pos hn] at hline
        subst hn
        exact yields_of_ok hline ⟨trivial, s, .refl, .last hlast hts⟩
      · rw [if_neg hn] at hline
        have hstatement : Yields (statement (Reader.fresh p) c sub limit n head args)
            (s.entered n (Token.line (head :: args))) _ _ :=
          yields_statement hlast hts hn hsub (henter.opened hs) rfl (Nat.succ_lt_succ hs.started)
        rcases hstatement.cases with ⟨flow, t, ht, honto, hgoes⟩ | ⟨e, t, ht, hstops⟩
        · exact yields_of_ok (hline.trans ht) ⟨honto, hgoes.after (.single henter)⟩
        · exact yields_of_error (hline.trans ht) (hstops.after (.single henter))

/-- **Lines are executed by moves**, and a range that holds the last line does not pass it. -/
theorem proceeds_rangeIn (hlast : p.last = .ok last) {start stop : Int} (hlow : 1 ≤ start)
    (hstop : stop ≤ p.size + 1) (steps : Nat) :
    Proceeds p (fun flow => start ≤ last → last < stop → flow = .halt)
      (rangeIn (Reader.fresh p) c limit steps start stop) := by
  induction steps generalizing start stop with
  | zero => exact fun s _ => yields_of_error rfl ⟨.refl, .inl rfl⟩
  | succ steps ih =>
    rw [rangeIn]
    split
    · next hlt =>
      have hsub : ProceedsBelow p start fun a b => rangeIn (Reader.fresh p) c limit steps a b := by
        intro a b ha hb
        exact (ih (by omega) hb).mono fun _ _ => trivial
      refine (proceeds_line hlast hlow (by omega) hsub).bind rfl (fun _ _ => rfl) ?_
      intro flow hflow honto
      cases flow with
      | halt => exact absurd rfl hflow
      | next =>
        have hne : start ≠ last := honto
        have hrest := ih (show 1 ≤ start + 1 by omega) hstop
        exact hrest.mono fun flow h hle hlt => h (by omega) hlt
      | jump a =>
        obtain ⟨hlow', hup⟩ := honto
        have hrest := ih (show 1 ≤ a by omega) hstop
        exact hrest.mono fun flow h _ hlt => h hup hlt
    · next hge => exact proceeds_pure (by decide) fun _ _ => by omega

end Exec

/-! ## Whole runs -/

/-- The first line with words is the line `n`, and it loads the preset `k`. -/
structure Program.LoadsAt (p : Program) (n : Int) (k : PresetNumber) : Prop where
  blank : p.Blank 1 n
  words : ∃ head id, p.tokens n = .ok [head, id] ∧ head.kind = .load ∧ id.kind = .preset k

theorem Program.LoadsAt.opens {p : Program} {n : Int} {k : PresetNumber} (h : p.LoadsAt n k) :
    p.Opens k := by
  obtain ⟨head, id, hts, hkind, hid⟩ := h.words
  exact ⟨n, head, id, hts, hkind, hid, h.blank⟩

/-- The session behind a first statement on line `n`, with the words `words`, that has loaded the
maze `m`. -/
def Session.opening (n : Int) (words : Text) (k : PresetNumber) (m : Maze) : Session :=
  (({} : Session).entered n words).loaded n k m

theorem Session.Opened.opening (n : Int) (words : Text) (k : PresetNumber) (m : Maze) :
    (Session.opening n words k m).Opened :=
  ⟨Nat.one_pos, m, rfl⟩

namespace Run

open Exec

/-- What a run may have done in the end. -/
inductive Course (p : Program) (c : Config) : Outcome → Prop where
  /-- It was refused before it had a maze. -/
  | refused {e : Stop} {s : Session} (he : Refuses p c e)
      (hs : s = {} ∨ ∃ n words, s = ({} : Session).entered n words) : Course p c ⟨.error e, s⟩
  /-- It has stopped behind the first statement. -/
  | stopped {n : Int} {words : Text} {k : PresetNumber} {m : Maze} {e : Stop} {t : Session}
      (hloads : p.LoadsAt n k) (hm : c.loader k = .ok m)
      (hstops : Stops p (.opening n words k m) e t) : Course p c ⟨.error e, t⟩
  /-- It has finished. -/
  | finished {n last : Int} {words : Text} {k : PresetNumber} {m : Maze} {s t : Session}
      (hloads : p.LoadsAt n k) (hm : c.loader k = .ok m) (hends : p.Ends last)
      (hjourney : Journey p (.opening n words k m) s) (hfinish : Finish p s t) :
      Course p c ⟨.ok .halt, t⟩

/-- **A run is refused, stops on its way, or finishes.** -/
theorem course_run (c : Config) (limit : Nat) (src : Text) :
    Course (.ofSource src) c (run c limit src).bare := by
  rw [bare_run, runFresh]
  rcases program_begins (Program.size_pos src) with
    ⟨e, he, hprogram⟩ | ⟨n, head, args, last, steps, hblank, hts, hends, hle, -, hprogram⟩
  · rw [Outcome.ofStep, hprogram]
    exact .refused (.inl he) (.inl rfl)
  · have hbounds := hends.bounds
    have hlow := (Program.bounds_of_tokens hts).1
    rw [Outcome.ofStep, hprogram]
    rcases load_cases c hts (({} : Session).entered n (Token.line (head :: args))) with
      ⟨e, he, hfails⟩ | ⟨id, k, m, hkind, rfl, hid, hm, hloads⟩
    · rw [bind_of_error hfails]
      exact .refused he (.inr ⟨_, _, rfl⟩)
    · rw [bind_of_ok hloads]
      have hat : (Program.ofSource src).LoadsAt n k := ⟨hblank, head, id, hts, hkind, hid⟩
      -- the first statement has two words and the last line has one
      have hne : n ≠ last := by
        rintro rfl
        obtain ⟨t, hclose, -⟩ := hends.close
        cases hts.symm.trans hclose
      have hrange : Proceeds (.ofSource src) (fun flow => n + 1 ≤ last → last < last + 1 → _)
          (rangeIn (Reader.fresh (.ofSource src)) c limit steps (n + 1) (last + 1)) :=
        proceeds_rangeIn hends.isLast (by omega) (by omega) steps
      rcases (hrange _ (.opening n (Token.line [head, id]) k m)).cases with
        ⟨flow, t, ht, hhalt, hgoes⟩ | ⟨e, t, ht, hstops⟩
      · obtain rfl : flow = .halt := hhalt (by omega) (by omega)
        obtain ⟨u, hjourney, hfinish⟩ := hgoes
        have hresult : rangeIn (Reader.fresh (.ofSource src)) c limit steps (n + 1) (last + 1)
            ((({} : Session).entered n (Token.line [head, id])).loaded n k m) = .ok .halt t := ht
        rw [hresult]
        exact .finished hat hm hends hjourney hfinish
      · have hresult : rangeIn (Reader.fresh (.ofSource src)) c limit steps (n + 1) (last + 1)
            ((({} : Session).entered n (Token.line [head, id])).loaded n k m) = .error e t := ht
        rw [hresult]
        exact .stopped hat hm hstops

end Run

end RobotMaze

import RobotMaze.Proofs.Run.Abreast

/-!
# Lines in order

A branch executes lines below it and then jumps behind its block, and blocks nest, so without loops
a run only ever moves down its program.

* `Step.Quiet` — a step that executes no further line;
* `Exec.rangeIn_ascends` — without loops, lines are executed in increasing order;
* `Exec.program_ascends` — and so is the whole program.
-/

namespace RobotMaze

/-! ## Trails -/

/-- The number of the line that an entry says is executed. -/
def Entry.line? : Entry → Option Int
  | .line number _ => some number
  | _ => none

/-- The numbers of the executed lines in a list of entries. -/
def Journal.lines (entries : List Entry) : List Int := entries.filterMap Entry.line?

namespace Session

/-- The numbers of the lines that were executed, in order. -/
def trail (s : Session) : List Int := Journal.lines s.journal.toList

theorem trail_noted (s : Session) {e : Entry} (h : e.line? = none) :
    (s.noted e).trail = s.trail := by
  simp [trail, noted, Journal.lines, h]

theorem trail_entered (s : Session) (n : Int) (words : Text) :
    (s.entered n words).trail = s.trail ++ [n] := by
  simp [trail, entered, Journal.lines, Entry.line?]

theorem trail_attempted (s : Session) (m : Maze) (a : Action) :
    (s.attempted m a).trail = s.trail := by
  unfold attempted
  cases m.perform a with
  | ok after => exact trail_noted _ rfl
  | error reason => exact trail_noted _ rfl

/-- Each line was executed after lines further up only. -/
def Ascending (s : Session) : Prop := s.trail.Pairwise (· < ·)

/-- Lines were executed in increasing order, and only lines before `n`. -/
structure Before (n : Int) (s : Session) : Prop where
  ascending : s.Ascending
  lt : ∀ k ∈ s.trail, k < n

theorem Before.mono {n n' : Int} {s : Session} (h : s.Before n) (hle : n ≤ n') : s.Before n' :=
  ⟨h.ascending, fun k hk => Int.lt_of_lt_of_le (h.lt k hk) hle⟩

theorem Before.of_trail {n : Int} {s t : Session} (h : s.Before n) (ht : t.trail = s.trail) :
    t.Before n := by
  obtain ⟨hascending, hlt⟩ := h
  rw [Ascending, ← ht] at hascending
  rw [← ht] at hlt
  exact ⟨hascending, hlt⟩

theorem Before.entered {n : Int} {s : Session} (h : s.Before n) (words : Text) :
    (s.entered n words).Before (n + 1) := by
  constructor
  · rw [Ascending, trail_entered, List.pairwise_append]
    exact ⟨h.ascending, List.pairwise_singleton _ _, fun k hk _ hn => by
      rw [List.mem_singleton.1 hn]
      exact h.lt k hk⟩
  · intro k hk
    rw [trail_entered, List.mem_append, List.mem_singleton] at hk
    rcases hk with hk | rfl
    · exact Int.lt_trans (h.lt k hk) (Int.lt_succ n)
    · exact Int.lt_succ k

end Session

/-! ## Steps that execute no further line -/

namespace Step

variable {α β : Type} {values : α → Prop} {values' : β → Prop}

/-- A step that executes no further line and gives a value of some sort. -/
def Quiet (values : α → Prop) (x : Step α) : Prop :=
  ∀ s, match x s with
    | .ok a t => values a ∧ t.trail = s.trail
    | .error _ t => t.trail = s.trail

theorem quiet_pure {a : α} (h : values a) : Quiet values (pure a) := fun _ => ⟨h, rfl⟩

theorem quiet_throw (e : Stop) : Quiet values (throw e : Step α) := fun _ => rfl

theorem quiet_fail (fault : Fault) (line column : Int) :
    Quiet values (fail fault line column : Step α) :=
  quiet_throw _

theorem quiet_ofExcept (x : Except Stop α) : Quiet (fun a => x = .ok a) (Step.ofExcept x) := by
  cases x with
  | ok a => exact quiet_pure rfl
  | error e => exact quiet_throw e

theorem quiet_modify {f : Session → Session} (h : ∀ s, (f s).trail = s.trail) :
    Quiet (fun _ => True) (modify f : Step Unit) :=
  fun s => ⟨trivial, h s⟩

theorem quiet_note {e : Entry} (h : e.line? = none) : Quiet (fun _ => True) (note e) :=
  quiet_modify fun s => s.trail_noted h

theorem Quiet.bind {x : Step α} {f : α → Step β} (hx : Quiet values x)
    (hf : ∀ a, values a → Quiet values' (f a)) : Quiet values' (x >>= f) := by
  intro s
  have hs := hx s
  cases h : x s with
  | ok a t =>
    rw [h] at hs
    rw [bind_of_ok h]
    have ht := hf a hs.1 t
    revert ht
    cases f a t with
    | ok b u => exact fun ht => ⟨ht.1, ht.2.trans hs.2⟩
    | error e u => exact fun ht => ht.trans hs.2
  | error e t =>
    rw [h] at hs
    rw [bind_of_error h]
    exact hs

/-- A step that executes no further line, followed by one that may. -/
theorem Quiet.andThen {x : Step α} {f : α → Step β} (hx : Quiet values x)
    (post : EStateM.Result Stop Session β → Prop)
    (herror : ∀ {e t}, t.Ascending → post (.error e t)) {n : Int}
    {s : Session} (hs : s.Before n) (hf : ∀ a t, values a → t.Before n → post (f a t)) :
    post ((x >>= f) s) := by
  have h := hx s
  cases hr : x s with
  | ok a t =>
    rw [hr] at h
    rw [bind_of_ok hr]
    exact hf a t h.1 (hs.of_trail h.2)
  | error e t =>
    rw [hr] at h
    rw [bind_of_error hr]
    exact herror (hs.of_trail h).ascending

end Step

namespace Exec

open Step

variable {p : Program} {c : Config} {n : Int} {head : Token} {args : List Token}

/-- To go on with the next line, or to end. -/
def IsPlain (flow : Flow) : Prop := ∀ line, flow ≠ .jump line

theorem quiet_condition (n : Int) (tokens : List Token) :
    Quiet (fun _ => True) (condition (Reader.fresh p) n tokens) := by
  refine (quiet_ofExcept _).bind fun e _ => ?_
  refine Quiet.bind (quiet_modify fun s => rfl) fun _ _ s => ?_
  rw [bind_get]
  cases e.eval s.toScene with
  | ok value => exact ⟨trivial, rfl⟩
  | error err => rfl

theorem quiet_act (a : Action) : Quiet (fun _ => True) (act (.action a)) := by
  intro s
  cases hm : s.maze with
  | none => rw [act_of_none hm]
  | some m =>
    rw [act_of_some hm]
    exact ⟨trivial, s.trail_attempted m a⟩

theorem quiet_load (n : Int) (head : Token) (args : List Token) :
    Quiet IsPlain (load c n head args) := by
  unfold load
  split
  · exact quiet_fail _ _ _
  · split
    · split
      · exact (quiet_modify fun _ => rfl).bind fun _ _ =>
          (quiet_note rfl).bind fun _ _ => quiet_pure nofun
      · exact quiet_throw _
      · exact quiet_fail _ _ _
    · exact quiet_fail _ _ _
  · exact quiet_fail _ _ _
  · exact quiet_fail _ _ _

theorem quiet_assign (n : Int) (tokens : List Token) :
    Quiet IsPlain (assign (Reader.fresh p) n tokens) := by
  unfold assign
  split
  · exact quiet_throw _
  · split
    · split
      · exact (quiet_condition n _).bind fun value _ => (quiet_modify fun _ => rfl).bind fun _ _ =>
          (quiet_note rfl).bind fun _ _ => quiet_pure nofun
      · exact quiet_fail _ _ _
    · exact quiet_fail _ _ _

theorem quiet_ending : Quiet (fun l => p.last = .ok l) (ending (Reader.fresh p)) := by
  intro s
  rcases ending_fresh p with ⟨e, -, hending⟩ | ⟨-, hending⟩ | ⟨last, hends, hending⟩
  · rw [hending]
  · rw [hending]
  · rw [hending]
    exact ⟨hends.isLast, rfl⟩

/-- Only branches and loops execute further lines. -/
theorem quiet_statement {sub : Int → Int → Step Flow} {limit : Nat}
    (hkind : head.kind.opensBlock = false) :
    Quiet IsPlain (statement (Reader.fresh p) c sub limit n head args) := by
  unfold statement
  cases hk : head.kind with
  | action a =>
    cases args with
    | nil =>
      refine (quiet_act a).bind fun opened _ => ?_
      cases opened with
      | true => exact (quiet_note rfl).bind fun _ _ => quiet_pure nofun
      | false => exact quiet_pure nofun
    | cons extra more => exact quiet_fail _ _ _
  | branch =>
    rw [hk] at hkind
    cases hkind
  | loop =>
    rw [hk] at hkind
    cases hkind
  | ident => exact quiet_assign n _
  | _ => exact quiet_fail _ _ _

/-! ## Moving down -/

/-- The lines up to `stop` were executed in order; only a run that ends leaves this open. -/
def Ascends (stop : Int) : EStateM.Result Stop Session Flow → Prop
  | .ok .halt t => t.Ascending
  | .ok _ t => t.Before stop
  | .error _ t => t.Ascending

/-- The line `n` and lines that belong to it were executed in order, and it goes on below them, not
behind `stop`. -/
def Advances (n stop : Int) : EStateM.Result Stop Session Flow → Prop
  | .ok .halt t => t.Ascending
  | .ok .next t => t.Before (n + 1)
  | .ok (.jump a) t => t.Before a ∧ n < a ∧ a ≤ stop
  | .error _ t => t.Ascending

theorem advances_of_quiet {x : Step Flow} (hx : Quiet IsPlain x) {stop : Int} {s : Session}
    (hs : s.Before (n + 1)) : Advances n stop (x s) := by
  have h := hx s
  revert h
  cases x s with
  | ok flow t =>
    rintro ⟨hplain, ht⟩
    cases flow with
    | next => exact hs.of_trail ht
    | jump a => exact absurd rfl (hplain a)
    | halt => exact (hs.of_trail ht).ascending
  | error e t => exact fun ht => (hs.of_trail ht).ascending

/-- Lines below `n` that open no block which ends elsewhere are executed in order. -/
def AscendsBelow (p : Program) (n : Int) (sub : Int → Int → Step Flow) : Prop :=
  ∀ {a b : Int} {s : Session}, n < a → a ≤ b → p.Closed a b → s.Before a → Ascends b (sub a b s)

variable {sub : Int → Int → Step Flow} {limit : Nat} {stop : Int} {s : Session}

theorem branch_advances (hclosed : ∀ {b}, p.block n = .ok b → b.close < stop)
    (hsub : AscendsBelow p n sub) (hs : s.Before (n + 1)) :
    Advances n stop (branch (Reader.fresh p) sub n args s) := by
  refine (quiet_ofExcept _).andThen (Advances n stop) id hs fun b t hb ht => ?_
  refine (quiet_condition n args).andThen (Advances n stop) id ht fun value u _ hu => ?_
  obtain ⟨hlow, hle, hup, hinside⟩ := Program.closed_chosen hb value
  have hclose := hclosed hb
  have hascends := hsub hlow hle hinside (hu.mono hlow)
  cases hrange : sub (b.chosen value).1 (b.chosen value).2 u with
  | error e v =>
    rw [hrange] at hascends
    rw [bind_of_error hrange]
    exact hascends
  | ok flow v =>
    rw [hrange] at hascends
    rw [bind_of_ok hrange]
    cases flow with
    | halt => exact hascends
    | next => exact ⟨hascends.mono (by omega), by omega, by omega⟩
    | jump a => exact ⟨hascends.mono (by omega), by omega, by omega⟩

theorem line_advances (hloop : p.head? n ≠ some .loop) (hn : n < stop) (hclosed : p.Closed n stop)
    (hsub : AscendsBelow p n sub) (hs : s.Before n) :
    Advances n stop (line (Reader.fresh p) c sub limit n s) := by
  refine (quiet_ofExcept _).andThen (Advances n stop) id hs fun ts t hts ht => ?_
  cases ts with
  | nil => exact ht.mono (Int.le_of_lt (Int.lt_succ n))
  | cons head args =>
    have hentered := ht.entered (Token.line (head :: args))
    have hhead := Program.head?_of_tokens hts
    show Advances n stop ((if t.executed + 1 = 1 then _ else _ : Step Flow)
      (t.entered n (Token.line (head :: args))))
    split
    · exact advances_of_quiet (quiet_load n head args) hentered
    · obtain ⟨isLast, hisLast⟩ := isLast_fresh p n
      rw [bind_of_ok (hisLast _)]
      cases isLast with
      | true => exact hentered.ascending
      | false =>
        cases hopens : head.kind.opensBlock with
        | false => exact advances_of_quiet (quiet_statement hopens) hentered
        | true =>
          -- there is no loop, so the line is a branch
          have hbranch : head.kind = .branch := by
            revert hopens hhead
            cases head.kind with
            | branch => exact fun _ _ => rfl
            | loop => exact fun hhead _ => absurd hhead hloop
            | _ => exact fun _ => nofun
          have hinside : ∀ {b}, p.block n = .ok b → b.close < stop :=
            fun hb => hclosed (Int.le_refl n) hn hhead hopens hb
          simp only [statement, hbranch]
          exact branch_advances hinside hsub hentered

/-- **Without loops, lines are executed in increasing order.** -/
theorem rangeIn_ascends (hloop : ∀ n, p.head? n ≠ some .loop) {steps : Nat} {start : Int}
    (hle : start ≤ stop) (hclosed : p.Closed start stop) (hs : s.Before start) :
    Ascends stop (rangeIn (Reader.fresh p) c limit steps start stop s) := by
  induction steps generalizing start stop s with
  | zero => exact hs.ascending
  | succ steps ih =>
    rw [rangeIn]
    by_cases hlt : start < stop
    · rw [if_pos hlt]
      have hsub : AscendsBelow p start (rangeIn (Reader.fresh p) c limit steps) :=
        fun _ hle hclosed hs => ih hle hclosed hs
      have hline : Advances start stop (line (Reader.fresh p) c
          (rangeIn (Reader.fresh p) c limit steps) limit start s) :=
        line_advances (hloop start) hlt hclosed hsub hs
      cases hr : line (Reader.fresh p) c (rangeIn (Reader.fresh p) c limit steps) limit start s with
      | error e t =>
        rw [hr] at hline
        rw [bind_of_error hr]
        exact hline
      | ok flow t =>
        rw [hr] at hline
        rw [bind_of_ok hr]
        cases flow with
        | halt => exact hline
        | next => exact ih hlt (hclosed.mono (Int.le_of_lt (Int.lt_succ start))) hline
        | jump a =>
          obtain ⟨hbefore, hstart, hstop⟩ := hline
          exact ih hstop (hclosed.mono (Int.le_of_lt hstart)) hbefore
    · rw [if_neg hlt]
      exact hs.mono hle

/-- Without loops, a program executes each line at most once and in increasing order. -/
theorem program_ascends (hloop : ∀ n, p.head? n ≠ some .loop) :
    (Run.Outcome.ofStep (program (Reader.fresh p) c limit) {}).session.Ascending := by
  have hempty : ({} : Session).Before 1 := ⟨.nil, nofun⟩
  have hascends : ∃ stop, Ascends stop (program (Reader.fresh p) c limit {}) := by
    refine quiet_ending.andThen (fun r => ∃ stop, Ascends stop r) (fun h => ⟨0, h⟩) hempty ?_
    intro last t hlast ht
    have hnonneg := (Program.last_eq_ok hlast).nonneg
    exact ⟨last + 1, rangeIn_ascends hloop (by omega) (Program.closed_last hlast 1) ht⟩
  unfold Run.Outcome.ofStep
  revert hascends
  cases program (Reader.fresh p) c limit {} with
  | error e t => exact fun ⟨_, h⟩ => h
  | ok flow t =>
    rintro ⟨stop, h⟩
    cases flow with
    | halt => exact h
    | _ => exact h.ascending

end Exec

end RobotMaze

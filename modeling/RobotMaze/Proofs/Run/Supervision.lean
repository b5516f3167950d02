import RobotMaze.Proofs.Program.Inner
import RobotMaze.Proofs.Run.Journey

/-!
# Jumps stay in their range

A branch executes lines of its block, and a loop repeats them.  These lines are bodies: at their own
level there is no `END` and no `OTHERWISE`, and the jumps among them lead behind blocks that end
there.  A supervised run gives an alarm if it comes to such a line inside of a block, or if a jump
does not lead down within the range of lines that is being executed; since an alarm would end the
run, the run is like any other only if there is never one.

* `Step.Ensures` — what a step gives, and why it may stop, from any session;
* `Exec.ensures_line` — how a run goes on behind a line, and which lines stray;
* `Exec.supervisedIn` — executes lines under supervision;
* `Run.jumps_stay_in_range` — no run ever causes an alarm, and only lines outside of all blocks
  stray.
-/

namespace RobotMaze

open Step

/-! ## Strays -/

/-- Whether a fault is an `END` or an `OTHERWISE` that belongs to no block. -/
def Fault.isStray : Fault → Bool
  | strayEnd => true
  | strayOtherwise => true
  | _ => false

/-- The line whose `END` or `OTHERWISE` belongs to no block, if that is the reason to stop. -/
def Stop.stray? : Stop → Option Int
  | failed e => if e.fault.isStray then some e.line else none
  | _ => none

theorem Stop.stray?_failed {e : Error} (h : e.fault.isStray = false) :
    (Stop.failed e).stray? = none := by
  simp [Stop.stray?, h]

theorem Fault.isStray_of_isOtherwise {fault : Fault} (h : fault.isOtherwise = true) :
    fault.isStray = false := by
  cases fault <;> first | rfl | cases h

theorem Line.isStray_faultOf (w : Text) : (faultOf w).isStray = false := by
  unfold faultOf
  split <;> rfl

theorem Expr.isStray_of_ofTokens {ts : List Token} {line : Int} {err : Error}
    (h : ofTokens ts line = .error err) : err.fault.isStray = false := by
  unfold ofTokens at h
  split at h
  · cases h
    rfl
  · dsimp only at h
    split at h
    · cases h
    · cases h
      rfl

theorem Term.isStray_of_eval {s : Scene} {term : Term} {err : Error}
    (h : term.eval s = .error err) : err.fault.isStray = false := by
  cases term with
  | literal word => cases h
  | sensor word =>
    simp only [Term.eval, Scene.sense] at h
    split at h
    · split at h <;> cases h
      rfl
    · cases h
      rfl
  | name word =>
    simp only [Term.eval] at h
    split at h <;> cases h
    rfl
  | blank =>
    cases h
    rfl

theorem Expr.isStray_of_eval {s : Scene} {e : Expr} {err : Error} (h : e.eval s = .error err) :
    err.fault.isStray = false := by
  rcases eval_eq_error h with hterm | ⟨link, -, hterm⟩
  · exact Term.isStray_of_eval hterm
  · exact Term.isStray_of_eval hterm

namespace Program

variable {p : Program} {n : Int} {e : Stop}

theorem stray?_of_tokens (h : p.tokens n = .error e) : e.stray? = none := by
  unfold tokens at h
  split at h
  · next line _ =>
    cases hread : Token.ofLine line n with
    | ok ts =>
      rw [hread] at h
      cases h
    | error err =>
      obtain ⟨-, piece, -, -, -, -, rfl⟩ := Token.ofLine_eq_error hread
      rw [hread] at h
      cases h
      exact Stop.stray?_failed (Line.isStray_faultOf piece.text)
  · cases h
    rfl

theorem stray?_of_lastUpTo {k : Nat} (h : p.lastUpTo k = .error e) : e.stray? = none := by
  induction k with
  | zero => cases h
  | succ k ih =>
    rw [lastUpTo_succ] at h
    cases hts : p.tokens (k + 1) with
    | error e' =>
      rw [hts] at h
      cases h
      exact stray?_of_tokens hts
    | ok ts =>
      rw [hts] at h
      cases ts with
      | nil => exact ih h
      | cons head args => cases h

theorem stray?_of_last (h : p.last = .error e) : e.stray? = none := stray?_of_lastUpTo h

theorem stray?_of_closeFrom {head : Token} {args : List Token} {header : Int} {count d : Nat}
    {seen : Option Int} (h : p.closeFrom (head :: args) header count n d seen = .error e) :
    e.stray? = none := by
  induction count generalizing n d seen with
  | zero =>
    rw [closeFrom_zero] at h
    cases h
    rfl
  | succ count ih =>
    cases hts : p.tokens n with
    | error e' =>
      rw [closeFrom_succ, hts] at h
      cases h
      exact stray?_of_tokens hts
    | ok ts =>
      rcases closeFrom_cases hts (head :: args) header count d seen with ⟨-, -, heq⟩ |
        ⟨d', -, -, heq⟩ | ⟨t, rest, -, -, -, heq⟩
      · cases heq.symm.trans h
      · exact ih (heq.symm.trans h)
      · rw [heq] at h
        cases hfault : otherwiseFault (head :: args) header seen (t :: rest) with
        | error e' => exact (otherwiseFault_eq_error hfault).elim
        | ok found =>
          rw [hfault] at h
          cases found with
          | none => exact ih h
          | some fault =>
            cases h
            exact Stop.stray?_failed
              (Fault.isStray_of_isOtherwise (isOtherwise_of_otherwiseFault hfault))

theorem stray?_of_block {head : Token} {args : List Token} (hts : p.tokens n = .ok (head :: args))
    (h : p.block n = .error e) : e.stray? = none := by
  rw [block_eq] at h
  cases hlast : p.last with
  | error e' =>
    rw [hlast] at h
    cases h
    exact stray?_of_last hlast
  | ok last =>
    rw [hlast, hts] at h
    exact stray?_of_closeFrom h

end Program

/-! ## What steps ensure -/

namespace Step

variable {α β : Type} {values : α → Prop} {values' : β → Prop} {errors errors' : Stop → Prop}

/-- From every session, a step gives a value of some sort or stops for a reason of some sort. -/
def Ensures (values : α → Prop) (errors : Stop → Prop) (x : Step α) : Prop :=
  ∀ s, Yields x s (fun a _ => values a) fun e _ => errors e

theorem ensures_pure {a : α} (h : values a) : Ensures values errors (pure a) := fun _ => h

theorem ensures_throw {e : Stop} (h : errors e) : Ensures values errors (throw e : Step α) :=
  fun _ => h

theorem ensures_ofExcept {x : Except Stop α} (h : ∀ e, x = .error e → errors e) :
    Ensures (fun a => x = .ok a) errors (Step.ofExcept x) := by
  cases x with
  | ok a => exact ensures_pure rfl
  | error e => exact ensures_throw (h e rfl)

theorem ensures_modify (f : Session → Session) :
    Ensures (fun _ => True) errors (modify f : Step Unit) :=
  fun _ => trivial

theorem ensures_note (e : Entry) : Ensures (fun _ => True) errors (note e) := ensures_modify _

theorem ensures_get : Ensures (fun _ => True) errors (get : Step Session) := fun _ => trivial

theorem Ensures.bind {x : Step α} {f : α → Step β} (hx : Ensures values errors x)
    (hf : ∀ a, values a → Ensures values' errors (f a)) : Ensures values' errors (x >>= f) := by
  intro s
  rcases (hx s).cases with ⟨a, t, ht, ha⟩ | ⟨e, t, ht, he⟩
  · show Yields (x >>= f) s _ _
    unfold Yields
    rw [bind_of_ok ht]
    exact hf a ha t
  · exact yields_of_error (bind_of_error ht) he

theorem Ensures.mono {x : Step α} (hx : Ensures values errors x)
    (herrors : ∀ e, errors e → errors' e) : Ensures values errors' x := by
  intro s
  rcases (hx s).cases with ⟨a, t, ht, ha⟩ | ⟨e, t, ht, he⟩
  · exact yields_of_ok ht ha
  · exact yields_of_error ht (herrors e he)

/-- What follows a step matters only for the values that the step can give. -/
theorem Ensures.bind_congr {x : Step α} {f g : α → Step β} (hx : Ensures values errors x)
    (hfg : ∀ a, values a → f a = g a) : (x >>= f) = (x >>= g) := by
  funext s
  rcases (hx s).cases with ⟨a, t, ht, ha⟩ | ⟨e, t, ht, -⟩
  · rw [bind_of_ok ht, bind_of_ok ht, hfg a ha]
  · rw [bind_of_error ht, bind_of_error ht]

end Step

namespace Exec

variable {p : Program} {c : Config} {n : Int} {head : Token} {args : List Token}
  {sub sub' : Int → Int → Step Flow} {limit : Nat}

/-! ## Statements -/

/-- To stop for another reason than a stray. -/
abbrev Strayless (e : Stop) : Prop := e.stray? = none

/-- Where a run goes on behind line `n`: on the next line, or behind the block that it opens. -/
def Passes (p : Program) (n : Int) : Flow → Prop
  | .next => p.turn n 0 = some 0
  | .jump a => ∃ kind b, p.head? n = some kind ∧ kind.opensBlock = true ∧ p.block n = .ok b ∧
      a = b.close + 1
  | .halt => True

/-- Why a run may stop on line `n`: the line strays, or it has nothing to do with strays. -/
def StraysOn (p : Program) (n : Int) (e : Stop) : Prop :=
  e.stray? = none ∨
    e.stray? = some n ∧ (p.head? n = some .close ∨ p.head? n = some .otherwise)

theorem ensures_fail {α : Type} {values : α → Prop} {fault : Fault} {line column : Int}
    (h : fault.isStray = false) : Ensures values Strayless (Step.fail fault line column) :=
  ensures_throw (Stop.stray?_failed h)

theorem ensures_condition (n : Int) (ts : List Token) :
    Ensures (fun _ => True) Strayless (condition (Reader.fresh p) n ts) := by
  unfold condition
  refine (ensures_ofExcept ?_).bind fun e _ => ?_
  · intro stop hstop
    cases hread : Expr.ofTokens ts n with
    | ok e =>
      rw [hread] at hstop
      cases hstop
    | error err =>
      rw [hread] at hstop
      cases hstop
      exact Stop.stray?_failed (Expr.isStray_of_ofTokens hread)
  · refine (ensures_modify _).bind fun _ _ => ensures_get.bind fun s _ => ?_
    cases hvalue : e.eval s.toScene with
    | ok value => exact ensures_pure trivial
    | error err => exact ensures_throw (Stop.stray?_failed (Expr.isStray_of_eval hvalue))

theorem ensures_act (a : Action) : Ensures (fun _ => True) Strayless (act (.action a)) := by
  intro s
  cases hm : s.maze with
  | none => exact yields_of_error (act_of_none hm _) rfl
  | some m => exact yields_of_ok (act_of_some hm a) trivial

/-- A line whose first word neither opens nor closes a block is passed. -/
theorem passes_next (hhead : p.head? n = some head.kind) (hopens : head.kind.opensBlock = false)
    (hclose : head.kind ≠ .close) : Passes p n .next := by
  show p.turn n 0 = some 0
  unfold Program.turn
  rw [hhead]
  revert hopens hclose
  cases head.kind <;> simp [Kind.opensBlock]

theorem ensures_load (hhead : p.head? n = some head.kind) :
    Ensures (Passes p n) Strayless (load c n head args) := by
  by_cases hload : head.kind = .load
  · have hnext : Passes p n .next := passes_next hhead (by rw [hload]; rfl) (by rw [hload]; nofun)
    unfold load
    rw [hload]
    split
    · exact ensures_fail rfl
    · split
      · split
        · exact (ensures_modify _).bind fun _ _ => (ensures_note _).bind fun _ _ =>
            ensures_pure hnext
        · exact ensures_throw rfl
        · exact ensures_fail rfl
      · exact ensures_fail rfl
    · exact ensures_fail rfl
    · exact ensures_fail rfl
  · rw [load_of_ne hload]
    exact ensures_fail rfl

theorem ensures_assign (hnext : Passes p n .next) (ts : List Token) :
    Ensures (Passes p n) Strayless (assign (Reader.fresh p) n ts) := by
  unfold assign
  split
  · exact ensures_throw rfl
  · split
    · split
      · exact (ensures_condition n _).bind fun _ _ => (ensures_modify _).bind fun _ _ =>
          (ensures_note _).bind fun _ _ => ensures_pure hnext
      · exact ensures_fail rfl
    · exact ensures_fail rfl

/-- The lines of the block that line `n` opens are executed without strays. -/
def StraylessInside (p : Program) (n : Int) (sub : Int → Int → Step Flow) : Prop :=
  ∀ {kind : Kind} {b : Block}, p.head? n = some kind → kind.opensBlock = true → p.block n = .ok b →
    ∀ value, Ensures (fun _ => True) Strayless (sub (b.chosen value).1 (b.chosen value).2)

theorem ensures_branch (hts : p.tokens n = .ok (head :: args)) (hkind : head.kind = .branch)
    (hsub : StraylessInside p n sub) :
    Ensures (Passes p n) Strayless (branch (Reader.fresh p) sub n args) := by
  have hhead := Program.head?_of_tokens hts
  have hopens : head.kind.opensBlock = true := by rw [hkind]; rfl
  refine (ensures_ofExcept fun e => Program.stray?_of_block hts).bind fun b hb => ?_
  refine (ensures_condition n args).bind fun value _ => ?_
  refine (hsub hhead hopens hb value).bind fun flow _ => ?_
  have hjump : Passes p n (.jump (b.close + 1)) := ⟨_, b, hhead, hopens, hb, rfl⟩
  cases flow with
  | halt => exact ensures_pure trivial
  | next => exact ensures_pure hjump
  | jump line => exact ensures_pure hjump

theorem ensures_rounds {test : Step Bool} {body : Step Flow} {exit : Flow} {cap : Int}
    (htest : Ensures (fun _ => True) Strayless test)
    (hbody : Ensures (fun _ => True) Strayless body) (hexit : Passes p n exit)
    (granted i : Nat) :
    Ensures (Passes p n) Strayless (rounds test body exit cap n granted i) := by
  induction granted generalizing i with
  | zero => exact ensures_throw rfl
  | succ granted ih =>
    refine htest.bind fun value _ => ?_
    cases value with
    | false => exact ensures_pure hexit
    | true =>
      simp only [if_true]
      split
      · exact ensures_fail rfl
      · refine hbody.bind fun flow _ => ?_
        cases flow with
        | halt => exact ensures_pure trivial
        | next => exact ih (i + 1)
        | jump line => exact ih (i + 1)

theorem ensures_loop (hts : p.tokens n = .ok (head :: args)) (hkind : head.kind = .loop)
    (hsub : StraylessInside p n sub) :
    Ensures (Passes p n) Strayless (loop (Reader.fresh p) c sub limit n args) := by
  have hhead := Program.head?_of_tokens hts
  have hopens : head.kind.opensBlock = true := by rw [hkind]; rfl
  refine (ensures_ofExcept fun e => Program.stray?_of_block hts).bind fun b hb => ?_
  have hbody := hsub hhead hopens hb true
  rw [Program.chosen_of_loop (by rw [hhead, hkind]) hb] at hbody
  have hjump : Passes p n (.jump (b.close + 1)) := ⟨_, b, hhead, hopens, hb, rfl⟩
  exact ensures_rounds (ensures_condition n args) hbody hjump limit 0

theorem ensures_statement (hts : p.tokens n = .ok (head :: args)) (hsub : StraylessInside p n sub) :
    Ensures (Passes p n) (StraysOn p n) (statement (Reader.fresh p) c sub limit n head args) := by
  have hhead := Program.head?_of_tokens hts
  have hclean : ∀ {x : Step Flow}, Ensures (Passes p n) Strayless x →
      Ensures (Passes p n) (StraysOn p n) x := fun hx => hx.mono fun e he => .inl he
  unfold statement
  cases hkind : head.kind with
  | action a =>
    cases args with
    | cons extra more => exact hclean (ensures_fail rfl)
    | nil =>
      have hnext : Passes p n .next :=
        passes_next hhead (by rw [hkind]; rfl) (by rw [hkind]; nofun)
      refine hclean ((ensures_act a).bind fun opened _ => ?_)
      cases opened with
      | true => exact (ensures_note _).bind fun _ _ => ensures_pure trivial
      | false => exact ensures_pure hnext
  | branch => exact hclean (ensures_branch hts hkind hsub)
  | loop => exact hclean (ensures_loop hts hkind hsub)
  | ident =>
    exact hclean (ensures_assign
      (passes_next hhead (by rw [hkind]; rfl) (by rw [hkind]; nofun)) _)
  | close => exact ensures_throw (.inr ⟨rfl, .inl (by rw [hhead, hkind])⟩)
  | otherwise => exact ensures_throw (.inr ⟨rfl, .inr (by rw [hhead, hkind])⟩)
  | _ => exact hclean (ensures_fail rfl)

/-- How a run goes on behind a line, if the lines of its block are executed without strays. -/
theorem ensures_line_of_inside (hsub : StraylessInside p n sub) :
    Ensures (Passes p n) (StraysOn p n) (line (Reader.fresh p) c sub limit n) := by
  refine (ensures_ofExcept fun e he => .inl (Program.stray?_of_tokens he)).bind fun ts hts => ?_
  cases ts with
  | nil =>
    refine ensures_pure ?_
    show p.turn n 0 = some 0
    unfold Program.turn Program.head?
    rw [hts]
  | cons head args =>
    refine (ensures_modify _).bind fun _ _ => (ensures_note _).bind fun _ _ =>
      ensures_get.bind fun s _ => ?_
    by_cases hfirst : s.executed = 1
    · rw [if_pos hfirst]
      exact (ensures_load (Program.head?_of_tokens hts)).mono fun e he => .inl he
    · rw [if_neg hfirst]
      have hlast : Ensures (fun _ => True) (StraysOn p n) (isLast (Reader.fresh p) n) := by
        obtain ⟨b, hb⟩ := isLast_fresh p n
        exact fun s => yields_of_ok (hb s) trivial
      refine hlast.bind fun last _ => ?_
      cases last with
      | true => exact ensures_pure trivial
      | false => exact ensures_statement hts hsub

/-! ## Ranges -/

/-- **Inside of a block nothing strays.** -/
theorem ensures_rangeIn_body {start stop : Int} (h : p.Body start stop) (steps : Nat) :
    Ensures (fun _ => True) Strayless (rangeIn (Reader.fresh p) c limit steps start stop) := by
  induction steps generalizing start stop with
  | zero => exact ensures_throw rfl
  | succ steps ih =>
    rw [rangeIn]
    by_cases hlt : start < stop
    · rw [if_pos hlt]
      have hinside : StraylessInside p start (rangeIn (Reader.fresh p) c limit steps) :=
        fun hhead _ hb value => ih (Program.body_chosen hhead hb value)
      have hline : Ensures (Passes p start) Strayless
          (line (Reader.fresh p) c (rangeIn (Reader.fresh p) c limit steps) limit start) := by
        refine (ensures_line_of_inside hinside).mono fun e he => he.resolve_right ?_
        rintro ⟨-, hhead | hhead⟩
        · exact (h.head_ne hlt).1 hhead
        · exact (h.head_ne hlt).2 hhead
      refine hline.bind fun flow hflow => ?_
      cases flow with
      | halt => exact ensures_pure trivial
      | next => exact ih (h.next hflow)
      | jump a =>
        obtain ⟨kind, b, hhead, hopens, hb, rfl⟩ := hflow
        exact ih (h.behind hhead hopens hb)
    · rw [if_neg hlt]
      exact ensures_pure trivial

/-- How a run goes on behind a line, and which lines stray. -/
theorem ensures_line (n : Int) (steps : Nat) :
    Ensures (Passes p n) (StraysOn p n)
      (line (Reader.fresh p) c (rangeIn (Reader.fresh p) c limit steps) limit n) :=
  ensures_line_of_inside fun hhead _ hb value =>
    ensures_rangeIn_body (Program.body_chosen hhead hb value) steps

/-- Lines outside of all blocks are executed in such a way that only they can stray. -/
theorem ensures_rangeIn_outer {start stop : Int} (h : p.Outer start) (steps : Nat) :
    Ensures (fun _ => True) (fun e => ∀ n, e.stray? = some n → ¬ p.Enclosed n)
      (rangeIn (Reader.fresh p) c limit steps start stop) := by
  induction steps generalizing start with
  | zero => exact ensures_throw fun n hn => by cases hn
  | succ steps ih =>
    rw [rangeIn]
    by_cases hlt : start < stop
    · rw [if_pos hlt]
      refine ((ensures_line start steps).mono ?_).bind fun flow hflow => ?_
      · rintro e (hnone | ⟨hstray, -⟩) n hn
        · cases hnone.symm.trans hn
        · cases hstray.symm.trans hn
          exact h.not_enclosed
      · cases flow with
        | halt => exact ensures_pure trivial
        | next => exact ih (h.next hflow)
        | jump a =>
          obtain ⟨kind, b, -, -, hb, rfl⟩ := hflow
          exact ih (h.behind hb)
    · rw [if_neg hlt]
      exact ensures_pure trivial

theorem ensures_ending : Ensures (fun l => p.last = .ok l) Strayless (ending (Reader.fresh p)) := by
  refine (ensures_ofExcept fun e he => Program.stray?_of_last he).bind fun l hl => ?_
  split
  · exact ensures_fail rfl
  · refine (ensures_ofExcept fun e he => Program.stray?_of_tokens he).bind fun ts _ => ?_
    split
    · split
      · exact ensures_pure hl
      · exact ensures_fail rfl
    · exact ensures_fail rfl

/-- Only lines outside of all blocks stray. -/
theorem ensures_program (p : Program) (c : Config) (limit : Nat) :
    Ensures (fun _ => True) (fun e => ∀ n, e.stray? = some n → ¬ p.Enclosed n)
      (program (Reader.fresh p) c limit) := by
  refine (ensures_ending.mono fun e he n hn => ?_).bind fun l _ => ?_
  · cases he.symm.trans hn
  · exact ensures_rangeIn_outer (Program.outer_first p) _

/-! ## Supervision -/

/-- Executes the lines `[start, stop)` under supervision: there is an alarm if a line inside of a
block is an `END` or an `OTHERWISE`, or if a jump does not lead down to a line of the range or right
behind it. -/
def supervisedIn (p : Program) (alarm : Stop) (r : Reader) (c : Config) (limit : Nat) :
    Nat → (inside : Bool) → (start stop : Int) → Step Flow
  | 0, _, _, _ => throw .unfinished
  | steps + 1, inside, start, stop =>
    if start < stop then
      if inside ∧ (p.head? start = some .close ∨ p.head? start = some .otherwise) then
        throw alarm
      else do
        match ← line r c (fun a b => supervisedIn p alarm r c limit steps true a b) limit start with
        | .halt => return .halt
        | .jump next =>
          if start < next ∧ next ≤ stop then
            supervisedIn p alarm r c limit steps inside next stop
          else
            throw alarm
        | .next => supervisedIn p alarm r c limit steps inside (start + 1) stop
    else
      return .next

/-- Executes a whole program under supervision. -/
def supervised (p : Program) (alarm : Stop) (r : Reader) (c : Config) (limit : Nat) :
    Step Flow := do
  let last ← ending r
  supervisedIn p alarm r c limit (r.size + 2) false 1 (last + 1)

/-- A line executes no other lines than those of its block. -/
theorem line_congr
    (h : ∀ {kind : Kind} {b : Block}, p.head? n = some kind → kind.opensBlock = true →
      p.block n = .ok b → ∀ value, sub (b.chosen value).1 (b.chosen value).2
        = sub' (b.chosen value).1 (b.chosen value).2) :
    line (Reader.fresh p) c sub limit n = line (Reader.fresh p) c sub' limit n := by
  have hany : ∀ {α : Type} (x : Except Stop α),
      Ensures (fun a => x = .ok a) (fun _ => True) (Step.ofExcept x) :=
    fun x => ensures_ofExcept fun _ _ => trivial
  refine (hany (p.tokens n)).bind_congr fun ts hts => ?_
  cases ts with
  | nil => rfl
  | cons head args =>
    have hhead := Program.head?_of_tokens hts
    have hstatement : statement (Reader.fresh p) c sub limit n head args
        = statement (Reader.fresh p) c sub' limit n head args := by
      unfold statement
      cases hkind : head.kind with
      | branch =>
        refine (hany (p.block n)).bind_congr fun b hb => ?_
        simp only [h hhead (by rw [hkind]; rfl) hb]
      | loop =>
        refine (hany (p.block n)).bind_congr fun b hb => ?_
        have hbody := h hhead (by rw [hkind]; rfl) hb true
        rw [Program.chosen_of_loop (by rw [hhead, hkind]) hb] at hbody
        rw [hbody]
      | _ => rfl
    simp only [hstatement]

/-- **No alarm is ever given** where every block ends in the range, and where a range inside of a
block is a body. -/
theorem supervisedIn_eq (alarm : Stop) {inside : Bool} {start stop : Int}
    (hclosed : p.Closed start stop) (hinside : inside = true → p.Body start stop) (steps : Nat) :
    supervisedIn p alarm (Reader.fresh p) c limit steps inside start stop
      = rangeIn (Reader.fresh p) c limit steps start stop := by
  induction steps generalizing inside start stop with
  | zero => rfl
  | succ steps ih =>
    rw [supervisedIn, rangeIn]
    by_cases hlt : start < stop
    · have hquiet : ¬ (inside = true ∧
          (p.head? start = some .close ∨ p.head? start = some .otherwise)) := by
        rintro ⟨hin, hhead | hhead⟩
        · exact ((hinside hin).head_ne hlt).1 hhead
        · exact ((hinside hin).head_ne hlt).2 hhead
      have hline : line (Reader.fresh p) c
          (fun a b => supervisedIn p alarm (Reader.fresh p) c limit steps true a b) limit start
          = line (Reader.fresh p) c (rangeIn (Reader.fresh p) c limit steps) limit start := by
        refine line_congr fun hhead _ hb value => ?_
        have hbody := Program.body_chosen hhead hb value
        exact ih hbody.closed fun _ => hbody
      rw [if_pos hlt, if_pos hlt, if_neg hquiet, hline]
      refine (ensures_line start steps).bind_congr fun flow hflow => ?_
      cases flow with
      | halt => rfl
      | next =>
        exact ih (hclosed.mono (Int.le_of_lt (Int.lt_succ start)))
          fun hin => (hinside hin).next hflow
      | jump a =>
        obtain ⟨kind, b, hhead, hopens, hb, rfl⟩ := hflow
        have hlow := (Program.block_order hb).2.1
        have hclose : b.close < stop := hclosed (Int.le_refl start) hlt hhead hopens hb
        dsimp only
        rw [if_pos ⟨by omega, by omega⟩]
        exact ih (hclosed.mono (by omega)) fun hin => (hinside hin).behind hhead hopens hb
    · rw [if_neg hlt, if_neg hlt]

theorem supervised_eq (alarm : Stop) :
    supervised p alarm (Reader.fresh p) c limit = program (Reader.fresh p) c limit :=
  ensures_ending.bind_congr fun _ hl =>
    supervisedIn_eq alarm (Program.closed_last hl 1) (fun hin => by cases hin) _

/-! ## Supervised runs that remember their program -/

/-- What a supervised run remembers does not show. -/
theorem related_supervisedIn (alarm : Stop) {inside : Bool} {start stop : Int} (hlow : 1 ≤ start)
    (hstop : stop ≤ p.size + 1) (steps : Nat) :
    Related (.forgetting p) Eq
      (supervisedIn p alarm (Reader.kept p) c limit steps inside start stop)
      (supervisedIn p alarm (Reader.fresh p) c limit steps inside start stop) := by
  induction steps generalizing inside start stop with
  | zero => exact related_throw fun s t hst => ⟨rfl, hst⟩
  | succ steps ih =>
    rw [supervisedIn, supervisedIn]
    split
    · next hlt =>
      split
      · exact related_throw fun s t hst => ⟨rfl, hst⟩
      · have hbelow : Below (.forgetting p) start start
            (supervisedIn p alarm (Reader.kept p) c limit steps true)
            (supervisedIn p alarm (Reader.fresh p) c limit steps true) := by
          rintro _ a _ b ⟨rfl, halow, -⟩ ⟨rfl, -, hbup⟩ - -
          exact ih halow hbup
        refine (parallel_forgets.related_line ⟨rfl, hlow, by omega⟩ hbelow ?_).bind ?_
        · intro head args head' args' hts hts' hkind
          cases hts.symm.trans hts'
          exact parallel_forgets.related_loop_of_below (.equal fun s t hst => ⟨rfl, hst⟩)
            (fun j _ => id) (fun j n hj => .inr ⟨hj, fun s t hst => ⟨rfl, hst⟩⟩) hts hkind hbelow
        rintro flow flow' hflow
        cases flow with
        | halt =>
          cases flow' with
          | halt => exact related_pure rfl
          | _ => exact hflow.elim
        | next =>
          cases flow' with
          | next => exact ih (by omega) hstop
          | _ => exact hflow.elim
        | jump a =>
          cases flow' with
          | jump a' =>
            obtain ⟨⟨rfl, halow, -⟩, -, -⟩ := hflow
            dsimp only
            split
            · exact ih halow hstop
            · exact related_throw fun s t hst => ⟨rfl, hst⟩
          | _ => exact hflow.elim
    · exact related_pure rfl

theorem related_supervised (alarm : Stop) :
    Related (.forgetting p) Eq (supervised p alarm (Reader.kept p) c limit)
      (supervised p alarm (Reader.fresh p) c limit) := by
  have hparallel := parallel_forgets (p := p) (c := c)
  refine (hparallel.related_ending (fun _ hst => ⟨rfl, hst⟩) Reader.recalls_last.related).bind ?_
  rintro l _ ⟨rfl, hl⟩
  have hle := (Program.last_eq_ok hl).le
  exact related_supervisedIn alarm (Int.le_refl 1) (by omega) _

end Exec

namespace Run

variable {c : Config} {limit : Nat} {src : Text}

/-- Executes a source under supervision. -/
def runSupervised (alarm : Stop) (c : Config) (limit : Nat) (src : Text) : Outcome :=
  Outcome.ofStep (Exec.supervised (Program.ofSource src) alarm
    (Reader.kept (Program.ofSource src)) c limit) {}

/-- Where a step corresponds to one that remembers nothing, it has the same outcome but for what is
remembered. -/
theorem Outcome.bare_ofStep {p : Program} {x y : Step Flow}
    (h : Related (.forgetting p) Eq x y) : (ofStep x {}).bare = ofStep y {} := by
  have hmatches := h {} {} ⟨rfl, Memo.coherent_empty p⟩
  revert hmatches
  unfold bare ofStep
  cases x {} with
  | ok flow s =>
    cases y {} with
    | ok flow' t =>
      rintro ⟨rfl, rfl, -⟩
      rfl
    | error e t => exact False.elim
  | error e s =>
    cases y {} with
    | ok flow t => exact False.elim
    | error e' t =>
      rintro (hexcused | ⟨rfl, rfl, -⟩)
      · exact hexcused.elim
      · rfl

theorem bare_runSupervised (alarm : Stop) :
    (runSupervised alarm c limit src).bare = (run c limit src).bare := by
  rw [bare_run, runSupervised, Outcome.bare_ofStep (Exec.related_supervised alarm),
    Exec.supervised_eq, runFresh]

/-- A line that strays stands outside of all blocks. -/
theorem not_enclosed_of_stray {e : Stop} {n : Int} (h : (run c limit src).ending = .error e)
    (hn : e.stray? = some n) : ¬ (Program.ofSource src).Enclosed n := by
  have hfresh : (runFresh c limit src).ending = .error e := by rw [← bare_run]; exact h
  obtain ⟨t, ht⟩ := Outcome.exists_of_ending hfresh
  have hensures := Exec.ensures_program (Program.ofSource src) c limit {}
  unfold Yields at hensures
  rw [ht] at hensures
  exact hensures n hn

/-- **Blocks nest, and jumps stay in their range.**  Inside of a block that is found, every line
that opens a block finds its end before the end of the outer one, and before the `OTHERWISE` of the
outer one if it stands before that, or it is refused because of an `OTHERWISE` in between; nothing
else can be wrong with it.  So in every run each jump leads down, and not behind the range of lines
that is being executed, and no `END` or `OTHERWISE` inside of a block is ever executed: supervision
of all this, for any alarm that it might give, changes nothing.  And an `END` or an `OTHERWISE` that
is reported to belong to no block stands outside of all blocks. -/
theorem jumps_stay_in_range (c : Config) (limit : Nat) (src : Text) :
    (∀ (p : Program) (h m : Int) (kind kind' : Kind) (b : Block), p.head? h = some kind →
      kind.opensBlock = true → p.block h = .ok b → h < m → m < b.close →
      p.head? m = some kind' → kind'.opensBlock = true →
        p.EndsWithin m b.close ∧ ∀ o, b.otherwise = some o → m < o → p.EndsWithin m o) ∧
    (∀ alarm, (runSupervised alarm c limit src).bare = (run c limit src).bare) ∧
    ∀ e, (run c limit src).ending = .error (.failed e) →
      e.fault = .strayEnd ∨ e.fault = .strayOtherwise →
        ¬ (Program.ofSource src).Enclosed e.line := by
  refine ⟨?_, bare_runSupervised, ?_⟩
  · intro p h m kind kind' b hhead _ hb hm hclose hhead' hopens'
    exact Program.endsWithin_of_block hhead hb hm hclose hhead' hopens'
  · intro e he hfault
    have hstray : e.fault.isStray = true := by
      rcases hfault with hfault | hfault <;> rw [hfault] <;> rfl
    exact not_enclosed_of_stray he (by simp [Stop.stray?, hstray])

/-- A branch that is not taken, with a loop inside of it that may not have the `OTHERWISE` it has,
and an `END` too many behind it. -/
def unbalanced : Text :=
  utf8 "LOAD 1\nIF FALSE\nWHILE TRUE\nOTHERWISE\nEND\nEND\nEND\nEND"

/-- Nobody minds the loop of `unbalanced`, but the `END` on line 7 belongs to no block. -/
theorem unbalanced_jumps_stay_in_range :
    (Program.ofSource unbalanced).block 2 = .ok ⟨2, none, 6⟩ ∧
      (Program.ofSource unbalanced).EndsWithin 3 6 ∧
      (run Structured.corridor 1 unbalanced).ending = .error (.failed ⟨.strayEnd, 7, 1⟩) ∧
      (∀ alarm, (runSupervised alarm Structured.corridor 1 unbalanced).bare
        = (run Structured.corridor 1 unbalanced).bare) ∧
      ¬ (Program.ofSource unbalanced).Enclosed 7 := by
  have hblock : (Program.ofSource unbalanced).block 2 = .ok ⟨2, none, 6⟩ := by decide +kernel
  have hbranch : (Program.ofSource unbalanced).head? 2 = some .branch := by decide +kernel
  have hloop : (Program.ofSource unbalanced).head? 3 = some .loop := by decide +kernel
  have hending : (run Structured.corridor 1 unbalanced).ending
      = .error (.failed ⟨.strayEnd, 7, 1⟩) := by decide +kernel
  obtain ⟨hnest, halarm, hstray⟩ := jumps_stay_in_range Structured.corridor 1 unbalanced
  exact ⟨hblock, (hnest _ 2 3 _ _ _ hbranch rfl hblock (by decide) (by decide) hloop rfl).1,
    hending, halarm, hstray _ hending (.inl rfl)⟩

end Run

end RobotMaze

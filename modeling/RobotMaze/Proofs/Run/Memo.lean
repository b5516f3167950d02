import RobotMaze.Proofs.Run.Abreast

/-!
# What is remembered does not show

A run remembers the tokens of lines, the last line, blocks and expressions.  Expressions are
remembered by the number of their line alone, whatever tokens are asked for, so the run depends on
each line being asked for one part of its tokens only.

* `Memo.Coherent` — what is remembered is what the program would give;
* `Step.Recalls` — a step that finds what the program would give, and stays coherent;
* `Run.run_forgets` — a run does the same as one that remembers nothing.
-/

namespace RobotMaze

open Step

variable {p : Program} {c : Config}

/-! ## Coherent memos -/

/-- The expression on a line: its condition, or what an assignment sets its variable to. -/
def Program.expr (p : Program) (n : Int) : Except Stop Expr := do
  let ts ← p.tokens n
  (Expr.ofTokens (Token.exprPart ts) n).mapError .failed

/-- What is remembered is what the program would give. -/
structure Memo.Coherent (p : Program) (m : Memo) : Prop where
  tokens : ∀ e ∈ m.tokens, p.tokens e.1 = .ok e.2
  last : ∀ n ∈ m.last, p.last = .ok n
  blocks : ∀ e ∈ m.blocks, p.block e.1 = .ok e.2
  exprs : ∀ e ∈ m.exprs, p.expr e.1 = .ok e.2

theorem Memo.coherent_empty (p : Program) : Memo.Coherent p {} := by
  refine ⟨?_, ?_, ?_, ?_⟩
  · intro e he
    cases he
  · intro n hn
    cases hn
  · intro e he
    cases he
  · intro e he
    cases he

/-- What is found in a table stands there. -/
theorem Table.mem_of_lookup {α : Type} {table : Table α} {n : Int} {a : α}
    (h : table.lookup n = some a) : (n, a) ∈ table := by
  obtain ⟨before, behind, rfl, -⟩ := List.lookup_eq_some_iff.1 h
  exact List.mem_append_right _ List.mem_cons_self

/-- The session without what it remembers. -/
def Session.bare (s : Session) : Session := { s with memo := {} }

/-! ## Look-ups -/

namespace Step

variable {α β : Type} {given : Except Stop α} {x : Step α}

/-- From a session with a coherent memo, a step finds what is given or fails as it is given, and the
memo, which is all that has changed, is still coherent. -/
def Recalls (p : Program) (given : Except Stop α) (x : Step α) : Prop :=
  ∀ s : Session, s.memo.Coherent p →
    ∃ t : Session, t.bare = s.bare ∧ t.memo.Coherent p ∧ x s = Step.ofExcept given t

theorem recalls_ofExcept (given : Except Stop α) : Recalls p given (Step.ofExcept given) :=
  fun s hs => ⟨s, rfl, hs, rfl⟩

theorem Recalls.bind {f : α → Except Stop β} {g : α → Step β} (hx : Recalls p given x)
    (hfg : ∀ a, given = .ok a → Recalls p (f a) (g a)) : Recalls p (given >>= f) (x >>= g) := by
  intro s hs
  obtain ⟨t, hbare, ht, hxs⟩ := hx s hs
  cases given with
  | ok a =>
    obtain ⟨u, hbare', hu, hgt⟩ := hfg a rfl t ht
    exact ⟨u, hbare'.trans hbare, hu, (bind_of_ok hxs).trans hgt⟩
  | error e => exact ⟨t, hbare, ht, bind_of_error hxs⟩

/-- A value may be remembered if that keeps the memo coherent. -/
theorem Recalls.remember {find : Memo → Option α} {keep : α → Memo → Memo} (hx : Recalls p given x)
    (hfind : ∀ m a, m.Coherent p → find m = some a → given = .ok a)
    (hkeep : ∀ m a, m.Coherent p → given = .ok a → (keep a m).Coherent p) :
    Recalls p given (Reader.remember find keep x) := by
  intro s hs
  unfold Reader.remember
  rw [bind_get]
  cases hfound : find s.memo with
  | some a =>
    refine ⟨s, rfl, hs, ?_⟩
    rw [hfind s.memo a hs hfound]
    rfl
  | none =>
    obtain ⟨t, hbare, ht, hxs⟩ := hx s hs
    cases given with
    | ok a =>
      refine ⟨{ t with memo := keep a t.memo }, hbare, hkeep t.memo a ht rfl, ?_⟩
      exact bind_of_ok hxs
    | error e => exact ⟨t, hbare, ht, bind_of_error hxs⟩

end Step

namespace Scan

variable {tokens : Int → Step (List Token)}

theorem recalls_lastUpTo (h : ∀ n, Recalls p (p.tokens n) (tokens n)) (k : Nat) :
    Recalls p (p.lastUpTo k) (lastUpTo tokens k) := by
  induction k with
  | zero => exact recalls_ofExcept (.ok 0)
  | succ k ih =>
    rw [Program.lastUpTo_succ]
    refine (h _).bind fun ts _ => ?_
    cases ts with
    | nil => exact ih
    | cons head args => exact recalls_ofExcept (.ok _)

theorem recalls_closeFrom (h : ∀ n, Recalls p (p.tokens n) (tokens n)) (opener : List Token)
    (header : Int) (count : Nat) (n : Int) (depth : Nat) (seen : Option Int) :
    Recalls p (p.closeFrom opener header count n depth seen)
      (closeFrom tokens opener header count n depth seen) := by
  induction count generalizing n depth seen with
  | zero =>
    rw [Program.closeFrom_zero]
    cases opener with
    | nil => exact recalls_ofExcept (.error _)
    | cons head args => exact recalls_ofExcept (.error _)
  | succ count ih =>
    rw [Program.closeFrom_succ]
    refine (h n).bind fun ts _ => ?_
    cases ts with
    | nil => exact ih _ _ _
    | cons head args =>
      dsimp only
      cases head.kind with
      | branch => exact ih _ _ _
      | loop => exact ih _ _ _
      | close =>
        cases depth with
        | zero => exact recalls_ofExcept (.ok _)
        | succ depth => exact ih _ _ _
      | otherwise =>
        cases depth with
        | succ depth => exact ih _ _ _
        | zero =>
          cases Program.otherwiseFault opener header seen (head :: args) with
          | error e => exact recalls_ofExcept (.error e)
          | ok found =>
            cases found with
            | some fault => exact recalls_ofExcept (.error _)
            | none => exact ih _ _ _
      | _ => exact ih _ _ _

theorem recalls_block (h : ∀ n, Recalls p (p.tokens n) (tokens n)) {last : Step Int}
    (hlast : Recalls p p.last last) (header : Int) :
    Recalls p (p.block header) (block tokens last header) := by
  rw [Program.block_eq]
  refine hlast.bind fun l _ => ?_
  refine (h header).bind fun opener _ => ?_
  exact recalls_closeFrom h opener header _ _ 0 none

end Scan

namespace Reader

theorem recalls_tokens (n : Int) : Recalls p (p.tokens n) ((kept p).tokens n) := by
  simp only [kept]
  unfold keptTokens
  refine (recalls_ofExcept _).remember ?_ ?_
  · intro m ts hm hfound
    exact hm.tokens _ (Table.mem_of_lookup hfound)
  · intro m ts hm hts
    exact { hm with tokens := List.forall_mem_cons.2 ⟨hts, hm.tokens⟩ }

theorem recalls_last : Recalls p p.last (kept p).last := by
  simp only [kept]
  unfold keptLast
  refine (Scan.recalls_lastUpTo recalls_tokens p.size).remember ?_ ?_
  · intro m n hm hfound
    exact hm.last n hfound
  · intro m n hm hn
    split
    · refine { hm with last := fun k hk => ?_ }
      cases hk
      exact hn
    · exact hm

theorem recalls_block (n : Int) : Recalls p (p.block n) ((kept p).block n) := by
  simp only [kept]
  unfold keptBlock
  refine (Scan.recalls_block recalls_tokens recalls_last n).remember ?_ ?_
  · intro m b hm hfound
    exact hm.blocks _ (Table.mem_of_lookup hfound)
  · intro m b hm hb
    exact { hm with blocks := List.forall_mem_cons.2 ⟨hb, hm.blocks⟩ }

/-- Asked for the expression of its line, the memo gives the right one. -/
theorem recalls_expr {n : Int} {ts : List Token} (hts : p.tokens n = .ok ts) :
    Recalls p ((Expr.ofTokens (Token.exprPart ts) n).mapError .failed)
      ((kept p).expr n (Token.exprPart ts)) := by
  have hexpr : p.expr n = (Expr.ofTokens (Token.exprPart ts) n).mapError .failed := by
    rw [Program.expr, hts]
    rfl
  simp only [kept]
  refine (recalls_ofExcept _).remember ?_ ?_
  · -- what is remembered for the line is the expression of this very part
    intro m e hm hfound
    rw [← hexpr]
    exact hm.exprs _ (Table.mem_of_lookup hfound)
  · intro m e hm he
    exact { hm with exprs := List.forall_mem_cons.2 ⟨hexpr.trans he, hm.exprs⟩ }

end Reader

/-! ## Sessions with and without a memo -/

/-- A session that remembers something corresponds to the same session without it. -/
def Session.Forgets (p : Program) (s t : Session) : Prop := t = s.bare ∧ s.memo.Coherent p

/-- A run that remembers its program and one that does not. -/
def Accord.forgetting (p : Program) : Accord :=
  .abreast p (Session.Forgets p) fun e s f t => f = e ∧ s.Forgets p t

/-- What is recalled is what is found without a memo. -/
theorem Step.Recalls.related {α : Type} {given : Except Stop α} {x : Step α}
    (hx : Recalls p given x) :
    Related (.forgetting p) (fun a b => b = a ∧ given = .ok a) x (Step.ofExcept given) := by
  rintro s _ ⟨rfl, hs⟩
  obtain ⟨t, hbare, ht, hxs⟩ := hx s hs
  rw [hxs]
  cases given with
  | ok a => exact ⟨⟨rfl, rfl⟩, hbare.symm, ht⟩
  | error e => exact .inr ⟨rfl, hbare.symm, ht⟩

/-- No change of a session concerns the memo. -/
theorem Exec.steady_forgets :
    Steady p c (Session.Forgets p) fun e s f t => f = e ∧ s.Forgets p t where
  started := by
    rintro s _ ⟨rfl, -⟩
    rfl
  scene := by
    rintro s _ ⟨rfl, -⟩
    exact ⟨fun _ => rfl, rfl⟩
  settle := by
    rintro s _ n ⟨rfl, hs⟩
    exact ⟨rfl, hs⟩
  enter := by
    rintro s _ n words ⟨rfl, hs⟩
    exact ⟨rfl, hs⟩
  load := by
    rintro s _ k m n words ⟨rfl, hs⟩ - -
    exact ⟨rfl, hs⟩
  attempt := by
    rintro s _ m a ⟨rfl, hs⟩ - -
    unfold Session.attempted
    cases m.perform a with
    | ok after => exact ⟨rfl, hs⟩
    | error reason => exact ⟨rfl, hs⟩
  solve := by
    rintro s _ n ⟨rfl, hs⟩
    exact ⟨rfl, hs⟩
  assign := by
    rintro s _ n head args value ⟨rfl, hs⟩ - -
    exact ⟨rfl, hs⟩
  fails := fun _ hst => ⟨rfl, hst⟩
  panics := fun hst _ => ⟨rfl, hst⟩

/-! ## Execution -/

namespace Exec

/-- Whether a line is the last one is recalled. -/
theorem isLast_of_recalls {r : Reader} (hlast : Recalls p p.last r.last) (n : Int) {s : Session}
    (hs : s.memo.Coherent p) :
    ∃ t : Session, t.bare = s.bare ∧ t.memo.Coherent p ∧
      isLast r n s = isLast (Reader.fresh p) n t := by
  obtain ⟨t, hbare, ht, hl⟩ := hlast s hs
  refine ⟨t, hbare, ht, ?_⟩
  rw [isLast_apply, isLast_apply, hl]
  rfl

theorem parallel_forgets :
    Parallel (.forgetting p) p p (Reader.kept p) (Reader.fresh p) c c := by
  refine steady_forgets.parallel (fun _ _ => rfl) ?_ ?_ ?_ ?_
  · intro n _ _
    exact (Reader.recalls_tokens n).related
  · rintro n s _ ⟨rfl, hs⟩
    obtain ⟨b, hb⟩ := isLast_fresh p n
    obtain ⟨t, hbare, ht, hisLast⟩ := isLast_of_recalls Reader.recalls_last n hs
    have hline : t.bare.line = s.bare.line := congrArg (fun u : Session => u.line) hbare
    exact ⟨b, t, s.bare, hisLast.trans (hb t), hb s.bare, ⟨hbare.symm, ht⟩, hline, rfl⟩
  · intro n head args _
    exact (Reader.recalls_block n).related
  · intro n ts hts
    exact Related.mono (Reader.recalls_expr hts).related fun _ _ h => h.1.symm

/-- A program does the same whether or not it is remembered. -/
theorem related_program (limit : Nat) :
    Related (.forgetting p) Eq (program (Reader.kept p) c limit)
      (program (Reader.fresh p) c limit) := by
  have hparallel := parallel_forgets (p := p) (c := c)
  refine hparallel.related_program (fun _ hst => ⟨rfl, hst⟩) Reader.recalls_last.related rfl rfl ?_
  refine hparallel.loops (.equal fun s t hst => ⟨rfl, hst⟩) (fun j _ => id) ?_
  exact fun j n hj => .inr ⟨hj, fun s t hst => ⟨rfl, hst⟩⟩

end Exec

/-- **A run does the same as one that remembers nothing**, and what it remembers at the end is
coherent. -/
theorem Run.run_forgets (c : Config) (limit : Nat) (src : Text) :
    (run c limit src).ending = (runFresh c limit src).ending
      ∧ (run c limit src).session.bare = (runFresh c limit src).session
      ∧ (run c limit src).session.memo.Coherent (Program.ofSource src) := by
  have h := Exec.related_program (p := Program.ofSource src) (c := c) limit {} {}
    ⟨rfl, Memo.coherent_empty _⟩
  revert h
  unfold run runFresh Outcome.ofStep
  cases Exec.program (Reader.kept (Program.ofSource src)) c limit {} with
  | ok flow s =>
    cases Exec.program (Reader.fresh (Program.ofSource src)) c limit {} with
    | ok flow' t =>
      rintro ⟨rfl, rfl, hs⟩
      exact ⟨rfl, rfl, hs⟩
    | error e t => exact False.elim
  | error e s =>
    cases Exec.program (Reader.fresh (Program.ofSource src)) c limit {} with
    | ok flow t => exact False.elim
    | error e' t =>
      rintro (hexcused | ⟨rfl, rfl, hs⟩)
      · exact hexcused.elim
      · exact ⟨rfl, rfl, hs⟩

end RobotMaze

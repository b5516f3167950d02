import RobotMaze.Proofs.Run.Parallel

/-!
# Runs over the same lines

Two runs of one program that execute the same lines are compared from its first line to its last.
They may consult the program in different ways, and they may be configured differently.

Every range starts further down than the line that asks for it, so the steps that a range can count
on are never used up.

* `Exec.Steady` — corresponding sessions still correspond when both are changed in the same way;
* `Exec.Parallel.related_rangeIn` — ranges of lines are executed in corresponding ways;
* `Exec.Parallel.related_program` — and so is the program.
-/

namespace RobotMaze

open Step

/-- Two runs over the same lines of a program. -/
def Accord.abreast (p : Program) (sessions : Session → Session → Prop)
    (stops : Stop → Session → Stop → Session → Prop) (excused : Stop → Prop := fun _ => False) :
    Accord where
  lines n n' := n' = n ∧ 1 ≤ n ∧ n ≤ p.size
  spots n n' := n' = n ∧ 1 ≤ n ∧ n ≤ p.size + 1
  columns k k' := k' = k
  sessions := sessions
  stops := stops
  excused := excused

namespace Exec

variable {p : Program} {c c' : Config} {sessions : Session → Session → Prop}
  {stops : Stop → Session → Stop → Session → Prop} {excused : Stop → Prop}

/-! ## Steady sessions -/

/-- Corresponding sessions still correspond when both are changed in the same way, and the runs may
both stop there. -/
structure Steady (p : Program) (c : Config) (sessions : Session → Session → Prop)
    (stops : Stop → Session → Stop → Session → Prop) : Prop where
  started : ∀ {s t}, sessions s t → (t.executed = 0 ↔ s.executed = 0)
  scene : ∀ {s t}, sessions s t → s.toScene.Alike id t.toScene
  settle : ∀ {s t} (n : Int), sessions s t → sessions { s with line := n } { t with line := n }
  enter : ∀ {s t} (n : Int) (words : Text), sessions s t →
    sessions (s.entered n words) (t.entered n words)
  load : ∀ {s t k m} (n : Int) (words : Text), sessions s t → s.executed = 0 →
    c.loader k = .ok m →
    sessions ((s.entered n words).loaded n k m) ((t.entered n words).loaded n k m)
  attempt : ∀ {s t m} (a : Action), sessions s t → t.line = s.line → s.maze = some m →
    sessions (s.attempted m a) (t.attempted m a)
  solve : ∀ {s t} (n : Int), sessions s t → sessions (s.noted (.solved n)) (t.noted (.solved n))
  assign : ∀ {s t n head args} (value : Bool), sessions s t → p.tokens n = .ok (head :: args) →
    head.kind = .ident →
    sessions (s.assigned n head.literal value) (t.assigned n head.literal value)
  fails : ∀ {s t} {e : Error}, e.fault.Uncapped → sessions s t → stops (.failed e) s (.failed e) t
  panics : ∀ {s t k}, sessions s t → c.loader k = .error .tooLarge →
    stops .outOfRange s .outOfRange t

theorem forall₂_alike_refl (ts : List Token) :
    List.Forall₂ (Token.Alike id fun k k' => k' = k) ts ts :=
  List.forall₂_same.2 fun _ _ => ⟨rfl, rfl, rfl⟩

/-- The lines of a block are lines of the program. -/
theorem alike_block {n : Int} {b : Block} (hn : 1 ≤ n) (h : p.block n = .ok b) :
    b.Alike (Accord.abreast p sessions stops excused).lines b := by
  obtain ⟨last, -, hlast, -, hclose⟩ := Program.block_eq_ok h
  obtain ⟨-, hlt, horder⟩ := Program.block_order h
  have hsize := (Program.last_eq_ok hlast).le
  refine ⟨?_, rfl, by omega, by omega⟩
  generalize b.otherwise = o at horder ⊢
  cases o with
  | none => exact .none
  | some o =>
    have ho := horder o rfl
    exact .some ⟨rfl, by omega, by omega⟩

/-- Steady sessions and corresponding look-ups make parallel runs. -/
theorem Steady.parallel (h : Steady p c sessions stops)
    (hc : ∀ {s t}, sessions s t → s.executed = 0 → c'.loader = c.loader) {r r' : Reader}
    (htokens : ∀ {n : Int}, 1 ≤ n → n ≤ p.size → Related (.abreast p sessions stops excused)
      (fun ts ts' => ts' = ts ∧ p.tokens n = .ok ts) (r.tokens n) (r'.tokens n))
    (hisLast : ∀ {n s t}, sessions s t → ∃ b s' t', isLast r n s = .ok b s' ∧
      isLast r' n t = .ok b t' ∧ sessions s' t' ∧ s'.line = s.line ∧ t'.line = t.line)
    (hblock : ∀ {n head args}, p.tokens n = .ok (head :: args) →
      Related (.abreast p sessions stops excused)
        (fun b b' => b' = b ∧ p.block n = .ok b) (r.block n) (r'.block n))
    (hexpr : ∀ {n ts}, p.tokens n = .ok ts → Related (.abreast p sessions stops excused) Eq
      (r.expr n (Token.exprPart ts)) (r'.expr n (Token.exprPart ts))) :
    Parallel (.abreast p sessions stops excused) p p r r' c c' where
  loader := hc
  spot := fun ⟨hn, hlow, hup⟩ => ⟨hn, hlow, by omega⟩
  spot_succ := fun ⟨hn, hlow, hup⟩ => ⟨by omega, by omega, by omega⟩
  column_zero := rfl
  words := by
    rintro _ n ts ts' ⟨rfl, -, -⟩ hts hts'
    cases hts.symm.trans hts'
    exact forall₂_alike_refl ts
  blocks := by
    rintro _ n b b' ⟨rfl, hlow, -⟩ hb hb'
    cases hb.symm.trans hb'
    exact alike_block hlow hb
  tokens := by
    rintro _ n ⟨rfl, hlow, hup⟩
    refine (htokens hlow hup).mono ?_
    rintro ts _ ⟨rfl, hts⟩
    exact ⟨hts, hts⟩
  isLast := by
    rintro _ n s t ⟨rfl, -, -⟩ hst
    exact hisLast hst
  block := by
    rintro _ n head args ⟨rfl, -, -⟩ hts
    refine (hblock hts).mono ?_
    rintro b _ ⟨rfl, hb⟩
    exact ⟨hb, hb⟩
  expr := by
    rintro _ n ts ts' ⟨rfl, -, -⟩ hts hts'
    cases hts.symm.trans hts'
    refine (hexpr hts).mono ?_
    rintro e _ rfl
    exact .refl e
  started := h.started
  scene := h.scene
  settle := by
    rintro s t _ n hst ⟨rfl, -, -⟩
    exact h.settle n hst
  enter := by
    rintro s t _ n ts ts' hst ⟨rfl, -, -⟩ hts hts'
    cases hts.symm.trans hts'
    exact h.enter n _ hst
  load := by
    rintro s t _ n ts ts' k m hst hs ⟨rfl, -, -⟩ hts hts' hk
    cases hts.symm.trans hts'
    exact h.load n _ hst hs hk
  attempt := by
    rintro s t m a hst ⟨hline, -, -⟩ hm
    exact h.attempt a hst hline hm
  solve := by
    rintro s t _ n hst ⟨rfl, -, -⟩
    exact h.solve n hst
  assign := by
    rintro s t _ n head args value hst ⟨rfl, -, -⟩ hts hk
    exact h.assign value hst hts hk
  fails := by
    rintro s t _ n _ k fault hfault hst ⟨rfl, -, -⟩ rfl
    show stops _ s (.failed ⟨fault.reword id, _, _⟩) t
    rw [Fault.reword_id]
    exact h.fails hfault hst
  panics := h.panics

/-- What holds of a session still holds when a run has changed it. -/
structure Kept (p : Program) (c : Config) (kept : Session → Prop) : Prop where
  settle : ∀ {s} (n : Int), kept s → kept { s with line := n }
  enter : ∀ {s} (n : Int) (words : Text), kept s → kept (s.entered n words)
  load : ∀ {s k m} (n : Int) (words : Text), kept s → s.executed = 0 → c.loader k = .ok m →
    kept ((s.entered n words).loaded n k m)
  attempt : ∀ {s m} (a : Action), kept s → s.maze = some m → kept (s.attempted m a)
  solve : ∀ {s} (n : Int), kept s → kept (s.noted (.solved n))
  assign : ∀ {s n head args} (value : Bool), kept s → p.tokens n = .ok (head :: args) →
    head.kind = .ident → kept (s.assigned n head.literal value)

/-- Equal sessions stay equal, and what is kept still holds of them. -/
theorem Kept.steady {kept : Session → Prop} (h : Kept p c kept)
    (hfails : ∀ {s} {e : Error}, e.fault.Uncapped → stops (.failed e) s (.failed e) s)
    (hpanics : ∀ {s k}, c.loader k = .error .tooLarge → stops .outOfRange s .outOfRange s) :
    Steady p c (fun s t => t = s ∧ kept s) stops where
  started := by
    rintro s _ ⟨rfl, -⟩
    rfl
  scene := by
    rintro s _ ⟨rfl, -⟩
    exact ⟨fun _ => rfl, rfl⟩
  settle := by
    rintro s _ n ⟨rfl, hs⟩
    exact ⟨rfl, h.settle n hs⟩
  enter := by
    rintro s _ n words ⟨rfl, hs⟩
    exact ⟨rfl, h.enter n words hs⟩
  load := by
    rintro s _ k m n words ⟨rfl, hs⟩ hzero hk
    exact ⟨rfl, h.load n words hs hzero hk⟩
  attempt := by
    rintro s _ m a ⟨rfl, hs⟩ - hm
    exact ⟨rfl, h.attempt a hs hm⟩
  solve := by
    rintro s _ n ⟨rfl, hs⟩
    exact ⟨rfl, h.solve n hs⟩
  assign := by
    rintro s _ n head args value ⟨rfl, hs⟩ hts hkind
    exact ⟨rfl, h.assign value hs hts hkind⟩
  fails := by
    rintro s _ e he ⟨rfl, -⟩
    exact hfails he
  panics := by
    rintro s _ k ⟨rfl, -⟩ hk
    exact hpanics hk

/-- Equal sessions stay equal. -/
theorem steady_eq (hfails : ∀ s (e : Error), e.fault.Uncapped → stops (.failed e) s (.failed e) s)
    (hpanics : ∀ s k, c.loader k = .error .tooLarge → stops .outOfRange s .outOfRange s) :
    Steady p c Eq stops := by
  have hkept : Kept p c fun _ => True :=
    ⟨fun _ _ => trivial, fun _ _ _ => trivial, fun _ _ _ _ _ => trivial, fun _ _ _ => trivial,
      fun _ _ => trivial, fun _ _ _ _ => trivial⟩
  have hsteady := hkept.steady (hfails _ _) (hpanics _ _)
  have heq : (fun s t : Session => t = s ∧ True) = Eq := by
    funext s t
    simp [eq_comm]
  rwa [heq] at hsteady

/-! ## Runs that remember nothing -/

theorem Steady.related_ofExcept (h : Steady p c sessions stops) {α : Type} {x : Except Stop α}
    (hx : ∀ e, x = .error e → e.IsFault) :
    Related (.abreast p sessions stops excused) (fun a b => b = a ∧ x = .ok a) (Step.ofExcept x)
      (Step.ofExcept x) := by
  cases x with
  | ok a => exact related_pure ⟨rfl, rfl⟩
  | error e =>
    obtain ⟨err, rfl, herr⟩ := hx e rfl
    exact related_throw fun _ _ hst => h.fails herr hst

theorem isLast_of_ok {last : Int} (h : p.last = .ok last) (n : Int) (s : Session) :
    isLast (Reader.fresh p) n s = .ok (n == last) s := by
  have hlast : (Reader.fresh p).last s = .ok last s := ofExcept_of_ok h s
  rw [isLast_apply, hlast]

theorem isLast_of_error {e : Stop} (h : p.last = .error e) (n : Int) (s : Session) :
    isLast (Reader.fresh p) n s = .ok false s := by
  have hlast : (Reader.fresh p).last s = .error e s := ofExcept_of_error h s
  rw [isLast_apply, hlast]

/-- Whether a line is the last one does not depend on the session. -/
theorem isLast_fresh (p : Program) (n : Int) :
    ∃ b, ∀ s, isLast (Reader.fresh p) n s = .ok b s := by
  cases hlast : p.last with
  | ok last => exact ⟨_, isLast_of_ok hlast n⟩
  | error e => exact ⟨_, isLast_of_error hlast n⟩

/-- A program is rejected at once, or its last line closes it. -/
theorem ending_fresh (p : Program) :
    (∃ e, p.Blames e ∧ ∀ s, ending (Reader.fresh p) s = .error e s) ∨
      (p.last = .ok 0 ∧
        ∀ s, ending (Reader.fresh p) s = .error (.failed ⟨.emptyProgram, 1, 0⟩) s) ∨
        ∃ last, p.Ends last ∧ ∀ s, ending (Reader.fresh p) s = .ok last s := by
  unfold ending
  simp only [Reader.fresh]
  cases hlast : p.last with
  | error e => exact .inl ⟨e, Program.last_eq_error hlast, fun s => rfl⟩
  | ok last =>
    by_cases hzero : last = 0
    · subst hzero
      exact .inr (.inl ⟨rfl, fun s => rfl⟩)
    · have hplain : Fault.unclosedProgram.Plain := ⟨nofun, rfl⟩
      obtain ⟨head, args, hts⟩ := (Program.last_eq_ok hlast).words hzero
      simp only [Step.ofExcept, pure_bind, if_neg hzero, hts]
      cases args with
      | cons extra more => exact .inl ⟨_, Program.blames_line hts hplain, fun s => rfl⟩
      | nil =>
        by_cases hclose : head.kind = .close
        · simp only [if_pos hclose]
          exact .inr (.inr ⟨last, ⟨hlast, head, hts, hclose⟩, fun s => rfl⟩)
        · simp only [if_neg hclose]
          exact .inl ⟨_, Program.blames_line hts hplain, fun s => rfl⟩

/-- Two runs of a program that remember nothing. -/
theorem Steady.fresh (h : Steady p c sessions stops)
    (hc : ∀ {s t}, sessions s t → s.executed = 0 → c'.loader = c.loader) :
    Parallel (.abreast p sessions stops excused) p p (Reader.fresh p) (Reader.fresh p) c c' := by
  refine h.parallel hc ?_ ?_ ?_ ?_
  · intro n hlow hup
    exact h.related_ofExcept fun e he => (Program.tokens_eq_error hlow hup he).isFault
  · intro n s t hst
    obtain ⟨b, hb⟩ := isLast_fresh p n
    exact ⟨b, s, t, hb s, hb t, hst, rfl, rfl⟩
  · intro n head args hts
    exact h.related_ofExcept fun e he => (Program.block_eq_error hts he).isFault
  · intro n ts hts
    exact Related.mono (h.related_ofExcept fun e he =>
      (Program.ofTokens_eq_error hts (Token.exprPart_subset ts) he).isFault)
      fun _ _ hab => hab.1.symm

theorem Steady.related_last (h : Steady p c sessions stops) :
    Related (.abreast p sessions stops excused) (fun l l' => l' = l ∧ p.last = .ok l)
      (Reader.fresh p).last (Reader.fresh p).last :=
  h.related_ofExcept fun _ he => (Program.last_eq_error he).isFault

/-! ## Ranges and programs -/

/-- The loops of the program correspond if the lines inside of them do. -/
def Loops (A : Accord) (p : Program) (r r' : Reader) (c c' : Config) (limit limit' : Nat) : Prop :=
  ∀ ⦃steps : Nat⦄ ⦃n : Int⦄ ⦃head : Token⦄ ⦃args : List Token⦄,
    p.tokens n = .ok (head :: args) → head.kind = .loop → p.size < n + steps →
    Below A n n (rangeIn r c limit steps) (rangeIn r' c' limit' steps) →
    Related A (Onward A n n) (loop r c (rangeIn r c limit steps) limit n args)
      (loop r' c' (rangeIn r' c' limit' steps) limit' n args)

namespace Parallel

variable {r r' : Reader} {limit limit' : Nat}

/-- A loop corresponds to itself, whatever executes the lines inside of it, as long as the second
run is not the first to be stopped. -/
theorem related_loop_of_below (h : Parallel (.abreast p sessions stops excused) p p r r' c c')
    (hlimit : Granted (.abreast p sessions stops excused) c.cap limit limit' 0)
    (hcap : ∀ j < limit, Spent c'.cap j → Spent c.cap j)
    (hspent : ∀ j n, Spent c.cap j → excused (exceeded c.cap n) ∨ Spent c'.cap j ∧
      ∀ s t, sessions s t → stops (exceeded c.cap n) s (exceeded c'.cap n) t)
    {n : Int} {head : Token} {args : List Token} (hts : p.tokens n = .ok (head :: args))
    (hkind : head.kind = .loop) {sub sub' : Int → Int → Step Flow}
    (hbelow : Below (.abreast p sessions stops excused) n n sub sub') :
    Related (.abreast p sessions stops excused)
      (Onward (.abreast p sessions stops excused) n n) (loop r c sub limit n args)
      (loop r' c' sub' limit' n args) := by
  obtain ⟨hlow, hup⟩ := Program.bounds_of_tokens hts
  have hn : (Accord.abreast p sessions stops excused).lines n n := ⟨rfl, hlow, hup⟩
  refine h.related_loop hn hts hbelow ?_
  intro b b' _ _ hbody hexit
  exact related_rounds (h.related_test hn hts hts (by rw [hkind]; decide)) hbody hexit trivial
    hlimit (by rwa [Nat.zero_add]) (hspent · n)

/-- Loops correspond as long as the second run is not the first to be stopped. -/
theorem loops (h : Parallel (.abreast p sessions stops excused) p p r r' c c')
    (hlimit : Granted (.abreast p sessions stops excused) c.cap limit limit' 0)
    (hcap : ∀ j < limit, Spent c'.cap j → Spent c.cap j)
    (hspent : ∀ j n, Spent c.cap j → excused (exceeded c.cap n) ∨ Spent c'.cap j ∧
      ∀ s t, sessions s t → stops (exceeded c.cap n) s (exceeded c'.cap n) t) :
    Loops (.abreast p sessions stops excused) p r r' c c' limit limit' :=
  fun _ _ _ _ hts hkind _ hbelow =>
    h.related_loop_of_below hlimit hcap hspent hts hkind hbelow

/-- **Ranges of lines are executed in corresponding ways**, if the loops among them are. -/
theorem related_rangeIn (h : Parallel (.abreast p sessions stops excused) p p r r' c c')
    (hloops : Loops (.abreast p sessions stops excused) p r r' c c' limit limit')
    {steps : Nat} {start stop : Int} (hlow : 1 ≤ start) (hup : start ≤ p.size + 1)
    (hstop : stop ≤ p.size + 1) (hsteps : p.size + 1 < start + steps) :
    Related (.abreast p sessions stops excused) Eq (rangeIn r c limit steps start stop)
      (rangeIn r' c' limit' steps start stop) := by
  induction steps generalizing start stop with
  | zero => omega
  | succ steps ih =>
    by_cases hlt : start < stop
    · -- from here on every range starts later, so one step less is enough
      have hbelow : Below (.abreast p sessions stops excused) start start
          (rangeIn r c limit steps) (rangeIn r' c' limit' steps) := by
        rintro _ a _ b ⟨rfl, halow, haup⟩ ⟨rfl, -, hbup⟩ hlt -
        exact ih halow haup hbup (by omega)
      refine related_rangeIn_succ hlt hlt ⟨rfl, by omega, by omega⟩ ⟨rfl, by omega, hstop⟩ hbelow ?_
      refine h.related_line ⟨rfl, hlow, by omega⟩ hbelow ?_
      intro head args head' args' hts hts' hkind
      cases hts.symm.trans hts'
      exact hloops hts hkind (by omega) hbelow
    · rw [rangeIn, rangeIn, if_neg hlt, if_neg hlt]
      exact related_pure rfl

/-- The last lines of two runs are looked at in corresponding ways. -/
theorem related_ending (h : Parallel (.abreast p sessions stops excused) p p r r' c c')
    (hfails : ∀ {s t} {e : Error}, e.fault.Uncapped → sessions s t →
      stops (.failed e) s (.failed e) t)
    (hlast : Related (.abreast p sessions stops excused) (fun l l' => l' = l ∧ p.last = .ok l)
      r.last r'.last) :
    Related (.abreast p sessions stops excused) (fun l l' => l' = l ∧ p.last = .ok l) (ending r)
      (ending r') := by
  have hfail : ∀ {α : Type} {values : α → α → Prop} {fault : Fault} (line column : Int),
      fault.Uncapped → Related (.abreast p sessions stops excused) values (fail fault line column)
        (fail fault line column) :=
    fun line column hfault => related_throw fun _ _ hst => hfails hfault hst
  refine hlast.bind ?_
  rintro l _ ⟨rfl, hl⟩
  obtain ⟨hnonneg, hle, hwords, -⟩ := Program.last_eq_ok hl
  split
  · exact hfail _ _ (by nofun)
  · refine (h.tokens ⟨rfl, by omega, hle⟩).bind ?_
    rintro ts ts' ⟨hts, hts'⟩
    cases hts.symm.trans hts'
    match ts with
    | [] => exact hfail _ _ (by nofun)
    | [t] =>
      simp only
      split
      · exact related_pure ⟨rfl, hl⟩
      · exact hfail _ _ (by nofun)
    | _ :: _ :: _ => exact hfail _ _ (by nofun)

/-- **Programs are executed in corresponding ways**, if their loops are. -/
theorem related_program (h : Parallel (.abreast p sessions stops excused) p p r r' c c')
    (hfails : ∀ {s t} {e : Error}, e.fault.Uncapped → sessions s t →
      stops (.failed e) s (.failed e) t)
    (hlast : Related (.abreast p sessions stops excused) (fun l l' => l' = l ∧ p.last = .ok l)
      r.last r'.last)
    (hsize : r.size = p.size) (hsize' : r'.size = p.size)
    (hloops : Loops (.abreast p sessions stops excused) p r r' c c' limit limit') :
    Related (.abreast p sessions stops excused) Eq (program r c limit) (program r' c' limit') := by
  refine (h.related_ending hfails hlast).bind ?_
  rintro l _ ⟨rfl, hl⟩
  have hle := (Program.last_eq_ok hl).le
  rw [range, range, hsize, hsize']
  exact h.related_rangeIn hloops (by omega) (by omega) (by omega) (by omega)

end Parallel

end Exec

end RobotMaze

import RobotMaze.Proofs.Maze.Posture
import RobotMaze.Proofs.Run.Iterate
import RobotMaze.Proofs.Run.Opening
import Mathlib.Data.Fintype.BigOperators
import Mathlib.Data.List.Dedup

/-!
# A cap that decides

What a run does next depends on its variables and its maze only.  The variables have names that head
a line, and each has no value or one of two; the maze differs from the loaded one in the posture of
its robot.  So a loop that makes as many iterations as there are such states has come back to one of
them, and goes on for ever.

* `Session.core` — what a run depends on, as a value out of a finite set;
* `Exec.loops_underway` — a loop that exceeds a high cap exceeds every higher cap;
* `Run.cap_decides` — a cap that is high enough is exceeded only by runs that never end.
-/

namespace RobotMaze

open Step

/-- The names that stand at the head of a line, each once. -/
def Program.names (p : Program) : List Text :=
  ((p.heads.filter fun head => head.kind = .ident).map Token.literal).dedup

theorem Program.mem_names {p : Program} {n : Int} {head : Token} {args : List Token}
    (hts : p.tokens n = .ok (head :: args)) (hkind : head.kind = .ident) :
    head.literal ∈ p.names :=
  List.mem_dedup.2 <| List.mem_map_of_mem <|
    List.mem_filter.2 ⟨mem_heads hts, decide_eq_true hkind⟩

/-- The number of states of a run in a maze. -/
def Program.bound (p : Program) (m : Maze) : Nat :=
  3 ^ p.names.length * m.width * m.length * 32

namespace Session

variable {p : Program} {m : Maze} {s t u : Session}

/-! ## Sessions behind the first statement -/

/-- A session of a run that has loaded the maze `m`. -/
structure Underway (p : Program) (m : Maze) (s : Session) : Prop where
  started : 0 < s.executed
  maze : ∃ now, s.maze = some now ∧ now.WellFormed ∧ m.SameGround now ∧ now.name = m.name
  names : ∀ x, s.env.get? x ≠ none → x ∈ p.names

theorem Underway.of_same (h : s.Underway p m) (hexecuted : s.executed ≤ t.executed)
    (hmaze : t.maze = s.maze) (henv : t.env = s.env) : t.Underway p m where
  started := Nat.lt_of_lt_of_le h.started hexecuted
  maze := by
    rw [hmaze]
    exact h.maze
  names := by
    rw [henv]
    exact h.names

theorem Underway.attempted (h : s.Underway p m) {now : Maze} (hnow : s.maze = some now)
    (a : Action) : (s.attempted now a).Underway p m := by
  obtain ⟨now', hnow', hwell, hground, hname⟩ := h.maze
  cases hnow.symm.trans hnow'
  unfold Session.attempted
  cases hafter : now.perform a with
  | error reason => exact h.of_same (Nat.le_refl _) rfl rfl
  | ok after =>
    obtain ⟨hwell', hground'⟩ := hwell.perform hafter
    exact ⟨h.started, ⟨after, rfl, hwell', hground.trans hground',
      (Maze.name_perform hafter).trans hname⟩, h.names⟩

theorem Underway.assigned (h : s.Underway p m) {x : Text} (hx : x ∈ p.names) (n : Int)
    (value : Bool) : (s.assigned n x value).Underway p m := by
  refine ⟨h.started, h.maze, fun y hy => ?_⟩
  by_cases hyx : y = x
  · rwa [hyx]
  · refine h.names y fun hnone => hy ?_
    show (s.env.set x value).get? y = none
    rw [Env.get?_set, if_neg hyx, hnone]

/-! ## What a run depends on -/

/-- The values of the names and the posture of the robot. -/
def core (p : Program) (s : Session) :
    (Fin p.names.length → Option Bool) × Option (Int × Int × Heading × Bool × Bool × Bool) :=
  (fun i => s.env.get? (p.names.get i), s.maze.map Maze.posture)

/-- All values and all postures in a maze. -/
def cores (p : Program) (m : Maze) :
    Finset ((Fin p.names.length → Option Bool) ×
      Option (Int × Int × Heading × Bool × Bool × Bool)) :=
  Finset.univ ×ˢ (Maze.postures m.width m.length).map .some

theorem card_cores (p : Program) (m : Maze) : (cores p m).card = p.bound m := by
  rw [cores, Finset.card_product, Finset.card_map, Maze.card_postures, Finset.card_univ,
    Fintype.card_fun, Fintype.card_fin, Fintype.card_option, Fintype.card_bool, Program.bound]
  simp only [Nat.mul_assoc]

theorem Underway.core_mem (h : s.Underway p m) : s.core p ∈ cores p m := by
  obtain ⟨now, hnow, hwell, hground, -⟩ := h.maze
  have hposture := hwell.posture_mem
  rw [hground.width, hground.length] at hposture
  simp only [cores, core, Finset.mem_product, Finset.mem_univ, true_and, hnow, Option.map_some,
    Finset.mem_map, Function.Embedding.some_apply]
  exact ⟨now.posture, hposture, rfl⟩

/-- Two sessions of runs that go on alike. -/
structure Resembles (s t : Session) : Prop where
  scene : s.toScene.Alike id t.toScene
  started : 0 < s.executed
  started' : 0 < t.executed

theorem Resembles.trans (h : s.Resembles t) (h' : t.Resembles u) : s.Resembles u :=
  ⟨⟨fun x => (h'.scene.env x).trans (h.scene.env x), h'.scene.maze.trans h.scene.maze⟩, h.started,
    h'.started'⟩

/-- Sessions with the same core go on alike. -/
theorem Underway.resembles (hs : s.Underway p m) (ht : t.Underway p m)
    (hcore : s.core p = t.core p) : s.Resembles t := by
  obtain ⟨now, hnow, hwell, hground, hname⟩ := hs.maze
  obtain ⟨now', hnow', hwell', hground', hname'⟩ := ht.maze
  rw [core, core, hnow, hnow', Prod.mk.injEq, Option.map_some, Option.map_some,
    Option.some.injEq] at hcore
  obtain ⟨henv, hposture⟩ := hcore
  have hsame : now' = now :=
    hwell.eq_of_posture hwell' (hground.symm.trans hground') (hname'.trans hname.symm) hposture.symm
  refine ⟨⟨fun x => ?_, ?_⟩, hs.started, ht.started⟩
  · by_cases hx : x ∈ p.names
    · obtain ⟨i, rfl⟩ := List.get_of_mem hx
      exact (congrFun henv i).symm
    · -- a name that heads no line has no value
      have hnone : ∀ {u : Session}, u.Underway p m → u.env.get? x = none :=
        fun hu => not_not.1 fun hne => hx (hu.names x hne)
      show t.env.get? x = s.env.get? x
      rw [hnone hs, hnone ht]
  · show t.maze = s.maze
    rw [hnow, hnow', hsame]

end Session

namespace Exec

variable {p : Program} {c : Config} {m : Maze}

/-! ## Steady sessions -/

/-- Sessions behind the first statement stay behind it. -/
theorem kept_underway : Kept p c fun s => s.Underway p m where
  settle := fun _ hs => hs.of_same (Nat.le_refl _) rfl rfl
  enter := fun _ _ hs => hs.of_same (Nat.le_succ _) rfl rfl
  load := fun _ _ hs hzero => absurd hzero (Nat.ne_of_gt hs.started)
  attempt := fun a hs hnow => hs.attempted hnow a
  solve := fun _ hs => hs.of_same (Nat.le_refl _) rfl rfl
  assign := fun value hs hts hkind => hs.assigned (Program.mem_names hts hkind) _ value

theorem steady_underway {stops : Stop → Session → Stop → Session → Prop}
    (hstops : ∀ {s e}, c.Rejects e → stops e s e s) :
    Steady p c (fun s t => t = s ∧ s.Underway p m) stops :=
  kept_underway.steady (fun he => hstops (.inl ⟨_, rfl, he⟩)) fun hk => hstops (.inr ⟨rfl, _, hk⟩)

/-- Sessions that resemble each other do so after the same change. -/
theorem steady_resembles : Steady p c Session.Resembles fun _ _ _ _ => True where
  started := by
    intro s t h
    have hs := h.started
    have ht := h.started'
    omega
  scene := fun h => h.scene
  settle := fun n h => ⟨⟨h.scene.env, h.scene.maze⟩, h.started, h.started'⟩
  enter := fun n words h =>
    ⟨⟨h.scene.env, h.scene.maze⟩, Nat.succ_pos _, Nat.succ_pos _⟩
  load := fun n words h hzero => absurd hzero (Nat.ne_of_gt h.started)
  attempt := by
    intro s t m a h _ _
    unfold Session.attempted
    cases m.perform a with
    | ok after => exact ⟨⟨h.scene.env, rfl⟩, h.started, h.started'⟩
    | error reason => exact ⟨⟨h.scene.env, h.scene.maze⟩, h.started, h.started'⟩
  solve := fun n h => ⟨⟨h.scene.env, h.scene.maze⟩, h.started, h.started'⟩
  assign := by
    intro s t n head args value h _ _
    refine ⟨⟨fun x => ?_, h.scene.maze⟩, h.started, h.started'⟩
    have henv : t.env.get? x = s.env.get? x := h.scene.env x
    show (t.env.set head.literal value).get? x = (s.env.set head.literal value).get? x
    rw [Env.get?_set, Env.get?_set, henv]
  fails := fun _ _ => trivial
  panics := fun _ _ => trivial

/-! ## Loops with high caps -/

/-- Two runs behind the first statement, the first with the cap `low` and the second with the cap
`high`: they do the same, or they fail on the same line because a loop exceeds the cap. -/
def underway (p : Program) (c : Config) (m : Maze) (low high : Int) : Accord :=
  .abreast p (fun s t => t = s ∧ s.Underway p m) fun e _ f _ =>
    f = e ∧ c.Rejects e ∨ ∃ n, e = exceeded low n ∧ f = exceeded high n

/-- Two runs of a program that have the same variables and the same maze. -/
def resembling (p : Program) : Accord := .abreast p Session.Resembles fun _ _ _ _ => True

/-- **A loop that exceeds a high cap exceeds every higher cap.** -/
theorem rounds_underway {test test' : Step Bool} {body body' : Step Flow} {exit exit' : Flow}
    {values : Flow → Flow → Prop} {low high n : Int} {limit limit' : Nat}
    (htest : Related (underway p c m low high) Eq test test')
    (hbody : Related (underway p c m low high) Eq body body')
    (hexit : values exit exit') (hhalt : values .halt .halt)
    (htest' : Related (resembling p) Eq test' test')
    (hbody' : Related (resembling p) Eq body' body')
    (hpos : 0 < low) (hlow : p.bound m ≤ low) (hhigh : low ≤ high) (hlimit : low < limit)
    (hlimit' : high < limit') :
    Related (underway p c m low high) values (rounds test body exit low n limit 0)
      (rounds test' body' exit' high n limit' 0) := by
  rintro s t hst
  have hs : (underway p c m low high).sessions s s := ⟨rfl, hst.2⟩
  obtain rfl : t = s := hst.1
  refine (rounds_meet And.left htest hbody hexit hhalt hpos hhigh (by omega) (by omega) (by omega)
    hs).elim id ?_
  rintro ⟨⟨u, hu⟩, hafter⟩
  have hresembles : ∀ {s t u : Session}, s.Resembles t → iterate test' body' s = some u →
      ∃ v, iterate test' body' t = some v ∧ u.Resembles v :=
    iterate_related htest' hbody'
  -- there are more iterations than cores, so the second loop goes on for ever
  have hlive : ∀ k, ∃ u, after (iterate test' body') k t = some u := by
    refine after_of_returning Session.Resembles .trans hresembles (Session.Underway p m)
      (Session.core p) Session.Underway.core_mem Session.Underway.resembles fun j hj => ?_
    rw [Session.card_cores p m] at hj
    obtain ⟨u, hu, hsu⟩ := hafter j (by omega)
    exact ⟨u, hu, hsu.2⟩
  obtain ⟨v, hv⟩ : ∃ v, rounds test' body' exit' high n limit' 0 t = .error (exceeded high n) v :=
    rounds_exceed hlive (by omega) (by omega) (by omega)
  rw [hu, hv]
  exact .inr (.inr ⟨n, rfl, rfl⟩)

theorem loops_underway {low high : Int} {limit limit' : Nat} (hpos : 0 < low)
    (hlow : p.bound m ≤ low) (hhigh : low ≤ high) (hlimit : low < limit) (hlimit' : high < limit') :
    Loops (underway p c m low high) p (Reader.fresh p) (Reader.fresh p) { c with cap := low }
      { c with cap := high } limit limit' := by
  have hparallel : Parallel (underway p c m low high) p p (Reader.fresh p) (Reader.fresh p)
      { c with cap := low } { c with cap := high } :=
    (steady_underway fun he => .inl ⟨rfl, he⟩).fresh fun _ _ => rfl
  have hsame : Parallel (resembling p) p p (Reader.fresh p) (Reader.fresh p)
      { c with cap := high } { c with cap := high } :=
    steady_resembles.fresh fun _ _ => rfl
  have hsame_loops : Loops (resembling p) p (Reader.fresh p) (Reader.fresh p)
      { c with cap := high } { c with cap := high } limit' limit' :=
    hsame.loops (.equal fun _ _ _ => trivial) (fun _ _ => id)
      fun j n hj => .inr ⟨hj, fun _ _ _ => trivial⟩
  intro steps n head args hts hkind hsteps hbelow
  obtain ⟨hn, hsize⟩ := Program.bounds_of_tokens hts
  have hident : head.kind ≠ .ident := by
    rw [hkind]
    decide
  refine hparallel.related_loop ⟨rfl, hn, hsize⟩ hts hbelow ?_
  intro b b' hb hb' hbody hexit
  cases hb.symm.trans hb'
  obtain ⟨last, -, hlast, -, hclose⟩ := Program.block_eq_ok hb
  have hle := (Program.last_eq_ok hlast).le
  refine rounds_underway (hparallel.related_test ⟨rfl, hn, hsize⟩ hts hts hident) hbody hexit
    trivial
    (hsame.related_test ⟨rfl, hn, hsize⟩ hts hts hident) ?_ hpos hlow hhigh hlimit hlimit'
  exact hsame.related_rangeIn hsame_loops (by omega) (by omega) (by omega) (by omega)

/-- Two runs in the maze `m` do the same, or a loop exceeds both caps. -/
theorem program_underway (hsize : 0 < p.size) (hwell : m.WellFormed)
    (hm : ∀ k, p.Opens k → c.loader k = .ok m) {low high : Int} {limit limit' : Nat}
    (hpos : 0 < low) (hlow : p.bound m ≤ low) (hhigh : low ≤ high) (hlimit : low < limit)
    (hlimit' : high < limit') :
    Matches (underway p c m low high) Eq
      (program (Reader.fresh p) { c with cap := low } limit {})
      (program (Reader.fresh p) { c with cap := high } limit' {}) := by
  have hparallel : Parallel (underway p c m low high) p p (Reader.fresh p) (Reader.fresh p)
      { c with cap := low } { c with cap := high } :=
    (steady_underway fun he => .inl ⟨rfl, he⟩).fresh fun _ _ => rfl
  refine program_opening hsize rfl (fun he => .inl ⟨rfl, he⟩) ?_
    (hparallel.related_rangeIn (loops_underway hpos hlow hhigh hlimit hlimit'))
  intro k m' n words hopens hk
  cases (hm k hopens).symm.trans hk
  exact ⟨rfl, Nat.one_pos, ⟨m, rfl, hwell, .refl m, rfl⟩, fun x hx => absurd rfl hx⟩

end Exec

namespace Run

variable {c : Config} {src : Text} {m : Maze} {o : Outcome} {n : Int}

theorem bound_pos (p : Program) (hwell : m.WellFormed) : 0 < p.bound m := by
  obtain ⟨hx, hwidth, hy, hlength⟩ := hwell.robot_inside
  have hcells : 0 < m.width * m.length := Nat.mul_pos (by omega) (by omega)
  have hvalues : 0 < 3 ^ p.names.length := Nat.pow_pos (by decide)
  rw [Program.bound, Nat.mul_assoc (3 ^ p.names.length)]
  exact Nat.mul_pos (Nat.mul_pos hvalues hcells) (by decide)

/-- No rejection is the error of a cap. -/
theorem not_rejects_exceeded (c : Config) (cap n : Int) : ¬ c.Rejects (Exec.exceeded cap n) := by
  rintro (⟨err, herr, hfault⟩ | ⟨herr, -⟩)
  · cases herr
    exact hfault cap rfl
  · cases herr

/-- A run that exceeds its cap names that cap. -/
theorem Returns.ending_of_exceeded (h : Returns c src o) (ho : o.Exceeded n) :
    0 < c.cap ∧ o.ending = .error (Exec.exceeded c.cap n) := by
  obtain ⟨cap, hcap⟩ := ho
  rcases h.mayStop hcap with hrejects | ⟨hpos, n', hn'⟩
  · exact absurd hrejects (not_rejects_exceeded c cap n)
  · cases hn'
    exact ⟨hpos, hcap⟩

/-- A run that exceeds a high cap exceeds every higher one, on the same line. -/
theorem Returns.exceeds (hwell : m.WellFormed)
    (hm : ∀ k, (Program.ofSource src).Opens k → c.loader k = .ok m) {low high : Int}
    (hlow : (Program.ofSource src).bound m ≤ low) (hhigh : low ≤ high)
    (h : Returns { c with cap := low } src o) (ho : o.Exceeded n) :
    ∃ o', Returns { c with cap := high } src o' ∧
      o'.ending = .error (Exec.exceeded high n) := by
  have hbound := bound_pos (.ofSource src) hwell
  -- a limit that is enough for the first run and ample for its cap
  obtain ⟨enough, henough⟩ := h.eventually
  obtain ⟨limit, hlimit, hample⟩ : ∃ limit, enough ≤ limit ∧ low < (limit : Int) :=
    ⟨max enough (low.toNat + 1), by omega, by omega⟩
  have hrun := henough limit hlimit
  rw [bare_run] at hrun
  have hending := (h.ending_of_exceeded ho).2
  rw [← hrun] at hending
  obtain ⟨t, ht⟩ := Outcome.exists_of_ending hending
  have hmatches := Exec.program_underway (Program.size_pos src) hwell hm (by omega) hlow hhigh
    hample (show high < ((high.toNat + 1 : Nat) : Int) by omega)
  rw [ht] at hmatches
  cases hright : Exec.program (Reader.fresh (.ofSource src)) { c with cap := high }
      (high.toNat + 1) {} with
  | ok flow u =>
    rw [hright] at hmatches
    exact hmatches.elim
  | error f u =>
    rw [hright] at hmatches
    rcases hmatches with hexcused | ⟨-, hrejects⟩ | ⟨n', hn', rfl⟩
    · exact hexcused.elim
    · exact absurd hrejects (not_rejects_exceeded c low n)
    · cases hn'
      have hfresh : runFresh { c with cap := high } (high.toNat + 1) src
          = ⟨.error (Exec.exceeded high n), u⟩ := by
        rw [runFresh, Outcome.ofStep, hright]
      have hended : (.error (Exec.exceeded high n) : Except Stop Flow) ≠ .error .unfinished := by
        simp [Exec.exceeded]
      exact ⟨⟨.error (Exec.exceeded high n), u⟩, returns_iff.2 ⟨hended, _, hfresh⟩, rfl⟩

/-- A run that exceeds one high cap exceeds all of them, on the same line. -/
theorem Returns.exceeds_all (hwell : m.WellFormed)
    (hm : ∀ k, (Program.ofSource src).Opens k → c.loader k = .ok m) {N M : Int}
    (hN : (Program.ofSource src).bound m ≤ N) (hM : (Program.ofSource src).bound m ≤ M)
    (h : Returns { c with cap := N } src o) (ho : o.Exceeded n) :
    ∃ o', Returns { c with cap := M } src o' ∧ o'.ending = .error (Exec.exceeded M n) := by
  have hpos : 0 < M := by
    have hbound := bound_pos (.ofSource src) hwell
    omega
  obtain ⟨o', ho'⟩ := exists_returns { c with cap := M } src (.inl hpos)
  -- what happens with the higher one of the caps
  obtain ⟨u, hu, hexceeds⟩ := h.exceeds hwell hm hN (Int.le_max_left N M) ho
  by_cases hexceeded : ∃ n', o'.Exceeded n'
  · obtain ⟨n', hn'⟩ := hexceeded
    obtain ⟨u', hu', hexceeds'⟩ := ho'.exceeds hwell hm hM (Int.le_max_right N M) hn'
    cases hu.unique hu'
    cases hexceeds.symm.trans hexceeds'
    exact ⟨o', ho', (ho'.ending_of_exceeded hn').2⟩
  · have hraised := ho'.raised hpos (.inl (Int.le_max_right N M)) fun n' hn' => hexceeded ⟨n', hn'⟩
    cases hu.unique hraised
    exact absurd ⟨n, _, hexceeds⟩ hexceeded

/-- A run that exceeds a high cap never ends without one. -/
theorem Returns.diverges (hwell : m.WellFormed)
    (hm : ∀ k, (Program.ofSource src).Opens k → c.loader k = .ok m) {N M : Int}
    (hN : (Program.ofSource src).bound m ≤ N) (h : Returns { c with cap := N } src o)
    (ho : o.Exceeded n) (hM : M ≤ 0) : ¬ ∃ o', Returns { c with cap := M } src o' := by
  rintro ⟨o', ho'⟩
  obtain ⟨enough, henough⟩ := ho'.capped hM
  obtain ⟨u, hu, hexceeds⟩ := h.exceeds hwell hm hN (Int.le_max_left N enough) ho
  cases hu.unique (henough _ (Int.le_max_right N enough))
  have hpos : 0 < M := (ho'.ending_of_exceeded ⟨_, hexceeds⟩).1
  omega

/-- **A cap can decide whether a run ends.**  Let `N` be the number of states of a run in the maze
that is loaded.  If a run with a cap of at least `N` fails because a loop exceeds the cap, then so
do the runs with all caps of at least `N`, on the same line, and without a cap the run never ends.
So a run that ends without a cap ends in the same way with every cap of at least `N`. -/
theorem cap_decides (c : Config) (src : Text) {m : Maze} (hbuilt : m.Built) (name : Text)
    (hm : ∀ k, (Program.ofSource src).Opens k → c.loader k = .ok { m with name := name }) :
    (∀ N n : Int, (Program.ofSource src).bound m ≤ N →
      (∃ o, Returns { c with cap := N } src o ∧ o.Exceeded n) →
        (∀ M : Int, (Program.ofSource src).bound m ≤ M → ∃ o, Returns { c with cap := M } src o ∧
          o.ending = .error (.failed { fault := .loopExceeded M, line := n })) ∧
        ∀ M : Int, M ≤ 0 → ¬ ∃ o, Returns { c with cap := M } src o) ∧
    ∀ M : Int, M ≤ 0 → ∀ o, Returns { c with cap := M } src o →
      ∀ N : Int, (Program.ofSource src).bound m ≤ N →
        Returns { c with cap := N } src o ∧ ∀ n, ¬ o.Exceeded n := by
  have hwell : { m with name := name }.WellFormed := { hbuilt.wellFormed with }
  have hbound := bound_pos (.ofSource src) hwell
  refine ⟨?_, ?_⟩
  · rintro N n hN ⟨o, ho, hexceeded⟩
    exact ⟨fun M hM => ho.exceeds_all hwell hm hN hM hexceeded,
      fun M hM => ho.diverges hwell hm hN hexceeded hM⟩
  · intro M hM o ho N hN
    have hpos : 0 < N := Int.lt_of_lt_of_le (Int.natCast_pos.2 hbound) hN
    obtain ⟨o', ho'⟩ := exists_returns { c with cap := N } src (.inl hpos)
    have hnot : ∀ n, ¬ o'.Exceeded n :=
      fun n hexceeded => ho'.diverges hwell hm hN hexceeded hM ⟨o, ho⟩
    cases ho.unique (ho'.raised hpos (.inr hM) hnot)
    exact ⟨ho', hnot⟩

/-- Turns for ever, as long as a variable tells it to. -/
def spinning : Text := utf8 "LOAD 1\nspin := TRUE\nWHILE spin\n  TURN_LEFT\nEND\nEND"

/-- In the corridor of five cells, with one variable, a loop that makes 480 iterations never
ends. -/
theorem spinning_cap_decides :
    (Program.ofSource spinning).names.length = 1 ∧
      (∃ o, Returns { Structured.corridor with cap := 480 } spinning o ∧ o.Exceeded 3) ∧
      ∀ M : Int, M ≤ 0 → ¬ ∃ o, Returns { Structured.corridor with cap := M } spinning o := by
  have hrows : Maze.ofRows Maze.twoKeys 3 (some ⟨4, 1⟩)
      = .ok (.ofDrawing Maze.twoKeys ⟨1, 1⟩ ⟨3, 1⟩ ⟨5, 1⟩ ⟨4, 1⟩ .east) := rfl
  have hnames : (Program.ofSource spinning).names.length = 1 := by decide +kernel
  have hending : (run { Structured.corridor with cap := 480 } 481 spinning).bare.ending
      = .error (.failed { fault := .loopExceeded 480, line := 3 }) := by
    decide +kernel
  generalize ho : (run { Structured.corridor with cap := 480 } 481 spinning).bare = o at hending
  have hexceeded : ∃ o, Returns { Structured.corridor with cap := 480 } spinning o ∧
      o.Exceeded 3 := by
    refine ⟨o, ⟨?_, 481, ho⟩, 480, hending⟩
    rw [hending]
    nofun
  have hdecides := cap_decides Structured.corridor spinning (.rows hrows) [] fun k _ => rfl
  refine ⟨hnames, hexceeded, (hdecides.1 480 3 ?_ hexceeded).2⟩
  rw [Program.bound, hnames]
  decide

end Run

end RobotMaze

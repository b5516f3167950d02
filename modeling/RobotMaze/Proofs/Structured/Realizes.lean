import RobotMaze.Proofs.Structured.Code

/-!
# Steps that realize behaviours

A run grants each entry of a loop some number of rounds, and it is unfinished if they do not
suffice.  A family of steps, one for each number of rounds, realizes a behaviour if it shows every
verdict of the behaviour once enough rounds are granted, and shows nothing else.

* `Settles` — this for the results from one session, and `Realizes` from all sessions;
* `Realizes.bind` — steps in a row realize behaviours in a row;
* `realizes_rounds` — the rounds of a loop realize `Behaviour.Rounds`.
-/

namespace RobotMaze.Structured

open Behaviour

/-! ## Worlds and sessions -/

/-- The session that shows a world, on some line. -/
def World.session (w : World) (line : Int) : Session where
  line := line
  env := w.env
  maze := some w.maze
  executed := w.entered + 1
  warnings := w.warnings
  journal := w.journal

/-- The result that shows a verdict; `exit` is how the run goes on if it does. -/
def Verdict.result (exit : Flow) (line : Int) : Verdict → EStateM.Result Stop Session Flow
  | .goesOn w => .ok exit (w.session line)
  | .halts w => .ok .halt (w.session line)
  | .fails e w => .error (.failed e) (w.session line)

/-- A result that shows nothing, since too few rounds were granted. -/
def Unfinished (r : EStateM.Result Stop Session Flow) : Prop := ∃ s, r = .error .unfinished s

/-- The results of runs with more and more rounds show the given verdicts and nothing else. -/
structure Settles (exit : Flow) (r : Nat → EStateM.Result Stop Session Flow)
    (verdicts : Verdict → Prop) : Prop where
  reached : ∀ v, verdicts v → ∃ enough line, ∀ limit, enough ≤ limit →
    r limit = v.result exit line
  told : ∀ limit, Unfinished (r limit) ∨ ∃ v, verdicts v ∧ ∃ line, r limit = v.result exit line

/-- In every world the steps show what the behaviour tells. -/
def Realizes (exit : Flow) (f : Nat → Step Flow) (b : Behaviour) : Prop :=
  ∀ w line, Settles exit (fun limit => f limit (w.session line)) (b w)

/-! ## Steps in a row -/

variable {exit exit' : Flow}

/-- A result that depends on no rounds. -/
theorem settles_result (v : Verdict) (line : Int) :
    Settles exit (fun _ => v.result exit line) fun u => u = v := by
  constructor
  · rintro u rfl
    exact ⟨0, line, fun _ _ => rfl⟩
  · intro limit
    exact .inr ⟨v, rfl, line, rfl⟩

theorem realizes_pure (exit : Flow) : Realizes exit (fun _ => pure exit) (exactly .goesOn) :=
  fun w line => settles_result (.goesOn w) line

theorem bind_apply (x : Step Flow) (f : Flow → Step Flow) (s : Session) :
    (x >>= f) s = match x s with
      | .ok flow t => f flow t
      | .error e t => .error e t := by
  show EStateM.bind x f s = _
  unfold EStateM.bind
  cases x s with
  | ok flow t => rfl
  | error e t => rfl

/-- Steps that go on with `exit`, and what follows it. -/
theorem Settles.bind {f : Nat → Step Flow} {k : Nat → Flow → Step Flow} {s : Session}
    {verdicts : Verdict → Prop} {b : Behaviour}
    (hf : Settles exit (fun limit => f limit s) verdicts)
    (hk : Realizes exit' (fun limit => k limit exit) b)
    (hhalt : ∀ limit, k limit .halt = pure .halt) :
    Settles exit' (fun limit => (f limit >>= k limit) s) fun v =>
      ∃ u, verdicts u ∧ u.Then b v := by
  -- what follows a verdict of the first steps, for as many rounds as it is shown with
  have hstop : ∀ {u : Verdict} {line limit}, f limit s = u.result exit line → u.stops = true →
      (f limit >>= k limit) s = u.result exit' line := by
    intro u line limit hu hstops
    rw [bind_apply, hu]
    cases u with
    | goesOn w => cases hstops
    | halts w =>
      show k limit .halt (w.session line) = _
      rw [hhalt]
      rfl
    | fails e w => rfl
  have hgo : ∀ {w : World} {line limit}, f limit s = (Verdict.goesOn w).result exit line →
      (f limit >>= k limit) s = k limit exit (w.session line) := by
    intro w line limit hw
    rw [bind_apply, hw]
    rfl
  constructor
  · rintro v ⟨u, hu, hthen⟩
    obtain ⟨enough, line, hline⟩ := hf.reached u hu
    cases u with
    | goesOn w =>
      obtain ⟨enough', line', hline'⟩ := (hk w line).reached v hthen
      refine ⟨max enough enough', line', fun limit hlimit => ?_⟩
      rw [hgo (hline limit (by omega))]
      exact hline' limit (by omega)
    | halts w =>
      cases (hthen : v = _)
      exact ⟨enough, line, fun limit hlimit => hstop (hline limit hlimit) rfl⟩
    | fails e w =>
      cases (hthen : v = _)
      exact ⟨enough, line, fun limit hlimit => hstop (hline limit hlimit) rfl⟩
  · intro limit
    rcases hf.told limit with ⟨t, ht⟩ | ⟨u, hu, line, hline⟩
    · left
      refine ⟨t, ?_⟩
      rw [bind_apply, ht]
    · cases u with
      | goesOn w =>
        rw [hgo hline]
        rcases (hk w line).told limit with hun | ⟨v, hv, hshown⟩
        · exact .inl hun
        · exact .inr ⟨v, ⟨_, hu, hv⟩, hshown⟩
      | halts w => exact .inr ⟨_, ⟨_, hu, rfl⟩, line, hstop hline rfl⟩
      | fails e w => exact .inr ⟨_, ⟨_, hu, rfl⟩, line, hstop hline rfl⟩

theorem Realizes.bind {f : Nat → Step Flow} {k : Nat → Flow → Step Flow} {b b' : Behaviour}
    (hf : Realizes exit f b) (hk : Realizes exit' (fun limit => k limit exit) b')
    (hhalt : ∀ limit, k limit .halt = pure .halt) :
    Realizes exit' (fun limit => f limit >>= k limit) (b.andThen b') :=
  fun w line => (hf w line).bind hk hhalt

/-! ## Behaviours in a row -/

namespace Behaviour

theorem andThen_assoc (b c d : Behaviour) :
    (b.andThen c).andThen d = b.andThen (c.andThen d) := by
  funext w v
  apply propext
  constructor
  · rintro ⟨u, ⟨u', hb, hc⟩, hd⟩
    refine ⟨u', hb, ?_⟩
    cases u' with
    | goesOn w' => exact ⟨u, hc, hd⟩
    | halts w' =>
      cases (hc : u = _)
      exact hd
    | fails e w' =>
      cases (hc : u = _)
      exact hd
  · rintro ⟨u, hb, hcd⟩
    cases u with
    | goesOn w' =>
      obtain ⟨u', hc, hd⟩ := hcd
      exact ⟨u', ⟨_, hb, hc⟩, hd⟩
    | halts w' => exact ⟨_, ⟨_, hb, rfl⟩, hcd⟩
    | fails e w' => exact ⟨_, ⟨_, hb, rfl⟩, hcd⟩

theorem goesOn_andThen (b : Behaviour) : (exactly .goesOn).andThen b = b := by
  funext w v
  apply propext
  constructor
  · rintro ⟨_, rfl, h⟩
    exact h
  · intro h
    exact ⟨_, rfl, h⟩

theorem andThen_goesOn (b : Behaviour) : b.andThen (exactly .goesOn) = b := by
  funext w v
  apply propext
  constructor
  · rintro ⟨u, h, hthen⟩
    cases u with
    | goesOn w' =>
      cases (hthen : v = _)
      exact h
    | halts w' =>
      cases (hthen : v = _)
      exact h
    | fails e w' =>
      cases (hthen : v = _)
      exact h
  · intro h
    refine ⟨v, h, ?_⟩
    cases v with
    | goesOn w' => rfl
    | halts w' => rfl
    | fails e w' => rfl

end Behaviour

/-- What comes after the lines of a block. -/
def unlessHalted (more : Step Flow) : Flow → Step Flow
  | .halt => pure .halt
  | _ => more

/-- A jump afterwards changes how the run goes on and nothing else. -/
theorem Realizes.jump {f : Nat → Step Flow} {b : Behaviour} (hf : Realizes .next f b) (line : Int) :
    Realizes (.jump line) (fun limit => f limit >>= unlessHalted (pure (.jump line))) b := by
  have h := hf.bind (k := fun _ => unlessHalted (pure (.jump line))) (realizes_pure (.jump line))
    fun _ => rfl
  rw [andThen_goesOn] at h
  exact h

/-! ## Loops -/

/-- The step that tells the value of an expression on line `n`. -/
def Tests (test : Step Bool) (n : Int) (e : Phrase) : Prop :=
  ∀ (w : World) (line : Int), test (w.session line) = match w.value n e with
    | .ok value => .ok value (w.session n)
    | .error err => .error (.failed err) (w.session n)

section Rounds

variable {test : Step Bool} {body : Nat → Step Flow} {b : Behaviour} {cap n : Int} {e : Phrase}

variable {x : Step Flow} {granted i : Nat} {w : World}

theorem rounds_leaves (htest : Tests test n e) (hvalue : w.value n e = .ok false) (line : Int) :
    Exec.rounds test x exit cap n (granted + 1) i (w.session line)
      = (Verdict.goesOn w).result exit n := by
  rw [Exec.rounds]
  show EStateM.bind test _ _ = _
  simp only [EStateM.bind, htest w line, hvalue]
  rfl

theorem rounds_faults (htest : Tests test n e) {err : Error} (hvalue : w.value n e = .error err)
    (line : Int) :
    Exec.rounds test x exit cap n (granted + 1) i (w.session line)
      = (Verdict.fails err w).result exit n := by
  rw [Exec.rounds]
  show EStateM.bind test _ _ = _
  simp only [EStateM.bind, htest w line, hvalue]
  rfl

theorem rounds_exceeds (htest : Tests test n e) (hvalue : w.value n e = .ok true)
    (hcap : 0 < cap ∧ cap ≤ i) (line : Int) :
    Exec.rounds test x exit cap n (granted + 1) i (w.session line)
      = (Verdict.fails { fault := .loopExceeded cap, line := n } w).result exit n := by
  rw [Exec.rounds]
  show EStateM.bind test _ _ = _
  simp only [EStateM.bind, htest w line, hvalue, if_true, if_pos hcap]
  rfl

theorem rounds_iterates (htest : Tests test n e) (hvalue : w.value n e = .ok true)
    (hcap : ¬ (0 < cap ∧ cap ≤ i)) (line : Int) :
    Exec.rounds test x exit cap n (granted + 1) i (w.session line)
      = (x >>= unlessHalted (Exec.rounds test x exit cap n granted (i + 1))) (w.session n) := by
  rw [Exec.rounds]
  show EStateM.bind test _ _ = _
  simp only [EStateM.bind, htest w line, hvalue, if_true, if_neg hcap]
  rfl

/-- With enough rounds, a loop shows what comes of it. -/
theorem rounds_reached (htest : Tests test n e) (hbody : Realizes .next body b) {v : Verdict}
    (h : Rounds cap n e b i w v) (line : Int) :
    ∃ enough line', ∀ limit granted, enough ≤ limit → enough ≤ granted →
      Exec.rounds test (body limit) exit cap n granted i (w.session line)
        = v.result exit line' := by
  -- each rule of `Rounds` takes one granted round, and an iteration what its body needs
  have hgrant : ∀ {granted : Nat}, 1 ≤ granted → ∃ g, granted = g + 1 :=
    fun h => ⟨_, (Nat.sub_add_cancel h).symm⟩
  induction h generalizing line with
  | leaves hvalue =>
    refine ⟨1, n, fun limit granted _ hg => ?_⟩
    obtain ⟨g, rfl⟩ := hgrant hg
    exact rounds_leaves htest hvalue line
  | faults hvalue =>
    refine ⟨1, n, fun limit granted _ hg => ?_⟩
    obtain ⟨g, rfl⟩ := hgrant hg
    exact rounds_faults htest hvalue line
  | exceeds hvalue hcap =>
    refine ⟨1, n, fun limit granted _ hg => ?_⟩
    obtain ⟨g, rfl⟩ := hgrant hg
    exact rounds_exceeds htest hvalue hcap line
  | @stops i w v hvalue hcap hb hstops =>
    obtain ⟨enough, line', hline'⟩ := (hbody w n).reached v hb
    refine ⟨enough + 1, line', fun limit granted hl hg => ?_⟩
    obtain ⟨g, rfl⟩ := hgrant (Nat.le_trans (by omega) hg)
    rw [rounds_iterates htest hvalue hcap, bind_apply, hline' limit (by omega)]
    cases v with
    | goesOn w' => cases hstops
    | halts w' => rfl
    | fails err w' => rfl
  | @again i w w' v hvalue hcap hb _ ih =>
    obtain ⟨enough, line₁, hline₁⟩ := (hbody w n).reached _ hb
    obtain ⟨enough', line₂, hline₂⟩ := ih line₁
    refine ⟨max enough enough' + 1, line₂, fun limit granted hl hg => ?_⟩
    obtain ⟨g, rfl⟩ := hgrant (Nat.le_trans (by omega) hg)
    rw [rounds_iterates htest hvalue hcap, bind_apply, hline₁ limit (by omega)]
    exact hline₂ limit g (by omega) (by omega)

/-- What a loop shows comes of it. -/
theorem rounds_told (htest : Tests test n e) (hbody : Realizes .next body b) (limit granted i : Nat)
    (w : World) (line : Int) :
    Unfinished (Exec.rounds test (body limit) exit cap n granted i (w.session line)) ∨
      ∃ v, Rounds cap n e b i w v ∧ ∃ line',
        Exec.rounds test (body limit) exit cap n granted i (w.session line)
          = v.result exit line' := by
  -- each granted round either ends the loop or takes one rule of `Rounds`
  induction granted generalizing i w line with
  | zero => exact .inl ⟨_, rfl⟩
  | succ g ih =>
    cases hvalue : w.value n e with
    | error err => exact .inr ⟨_, .faults hvalue, n, rounds_faults htest hvalue line⟩
    | ok value =>
      cases value with
      | false => exact .inr ⟨_, .leaves hvalue, n, rounds_leaves htest hvalue line⟩
      | true =>
        by_cases hcap : 0 < cap ∧ cap ≤ i
        · exact .inr ⟨_, .exceeds hvalue hcap, n, rounds_exceeds htest hvalue hcap line⟩
        · rw [rounds_iterates htest hvalue hcap, bind_apply]
          rcases (hbody w n).told limit with ⟨t, ht⟩ | ⟨u, hu, line', hline'⟩
          · left
            refine ⟨t, ?_⟩
            rw [ht]
          · rw [hline']
            cases u with
            | goesOn w' =>
              rcases ih (i + 1) w' line' with hun | ⟨v, hv, hshown⟩
              · exact .inl hun
              · exact .inr ⟨v, .again hvalue hcap hu hv, hshown⟩
            | halts w' => exact .inr ⟨_, .stops hvalue hcap hu rfl, line', rfl⟩
            | fails err w' => exact .inr ⟨_, .stops hvalue hcap hu rfl, line', rfl⟩

/-- **The rounds of a loop realize what the loop does.** -/
theorem realizes_rounds (htest : Tests test n e) (hbody : Realizes .next body b) :
    Realizes exit (fun limit => Exec.rounds test (body limit) exit cap n limit 0)
      (Rounds cap n e b 0) := by
  intro w line
  constructor
  · intro v hv
    obtain ⟨enough, line', hline'⟩ := rounds_reached htest hbody hv line
    exact ⟨enough, line', fun limit hlimit => hline' limit limit hlimit hlimit⟩
  · intro limit
    exact rounds_told htest hbody limit limit 0 w line

end Rounds

end RobotMaze.Structured

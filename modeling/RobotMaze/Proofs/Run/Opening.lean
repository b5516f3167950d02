import RobotMaze.Proofs.Run.Termination

/-!
# The first statement

A run passes over lines without words until it comes to its first statement, which has to load a
maze.  Nothing that happens until then depends on a cap, so two runs with different caps come to the
same session behind the first statement, or stop together before it.

* `Program.Opens` — which preset a program loads;
* `Exec.program_begins` — a program is rejected, or it comes to its first statement;
* `Exec.program_opening` — programs correspond if they do behind the first statement.
-/

namespace RobotMaze

open Step

/-- The first line with words loads the preset `k`. -/
def Program.Opens (p : Program) (k : PresetNumber) : Prop :=
  ∃ n head id, p.tokens n = .ok [head, id] ∧ head.kind = .load ∧ id.kind = .preset k ∧
    ∀ j, 1 ≤ j → j < n → p.tokens j = .ok []

namespace Exec

variable {p : Program} {c c' : Config} {n : Int} {head : Token} {args : List Token}
  {sub : Int → Int → Step Flow} {limit limit' : Nat} {s : Session}

/-! ## Single lines -/

theorem line_of_fault {e : Stop} (h : p.tokens n = .error e) :
    line (Reader.fresh p) c sub limit n s = .error e s :=
  bind_of_error (ofExcept_of_error h s)

theorem line_of_blank (h : p.tokens n = .ok []) :
    line (Reader.fresh p) c sub limit n s = .ok .next s :=
  bind_of_ok (ofExcept_of_ok h s)

/-- The first line that is executed loads the maze. -/
theorem line_of_first (h : p.tokens n = .ok (head :: args)) (hs : s.executed = 0) :
    line (Reader.fresh p) c sub limit n s
      = load c n head args (s.entered n (Token.line (head :: args))) := by
  have htokens : (Reader.fresh p).tokens n s = .ok (head :: args) s := ofExcept_of_ok h s
  rw [line, bind_of_ok htokens]
  show (if s.executed + 1 = 1 then load c n head args else _ : Step Flow) (s.entered n _) = _
  rw [if_pos (by omega)]

/-- Why a first statement fails: an error in the program, or a loader that asks for too much. -/
def Refuses (p : Program) (c : Config) (e : Stop) : Prop :=
  p.Blames e ∨ e = .outOfRange ∧ ∃ k, c.loader k = .error .tooLarge

theorem Refuses.rejects {e : Stop} (h : Refuses p c e) : c.Rejects e :=
  h.imp_left Program.Blames.isFault

/-- A first statement fails, or it loads a maze. -/
theorem load_cases (c : Config) (hts : p.tokens n = .ok (head :: args)) (s : Session) :
    (∃ e, Refuses p c e ∧ load c n head args s = .error e s) ∨
      ∃ id k m, head.kind = .load ∧ args = [id] ∧ id.kind = .preset k ∧ c.loader k = .ok m ∧
        load c n head args s = .ok .next (s.loaded n k m) := by
  have hline : ∀ {fault : Fault}, fault.Plain →
      ∃ e, Refuses p c e ∧ (fail fault n 0 : Step Flow) s = .error e s :=
    fun hfault => ⟨_, .inl (Program.blames_line hts hfault), rfl⟩
  have hword : ∀ {t : Token} {fault : Fault}, t ∈ head :: args → fault.Plain →
      ∃ e, Refuses p c e ∧ (fail fault n t.column : Step Flow) s = .error e s :=
    fun ht hfault => ⟨_, .inl (Program.blames_word hts ht hfault), rfl⟩
  by_cases hload : head.kind = .load
  · unfold load
    rw [hload]
    match args with
    | [] => exact .inl (hline ⟨nofun, rfl⟩)
    | _ :: extra :: _ => exact .inl (hword (t := extra) (by simp) ⟨nofun, rfl⟩)
    | [id] =>
      dsimp only
      cases hid : id.kind with
      | preset k =>
        dsimp only
        cases hk : c.loader k with
        | ok m => exact .inr ⟨id, k, m, rfl, rfl, hid, hk, rfl⟩
        | error e =>
          cases e with
          | tooLarge => exact .inl ⟨_, .inr ⟨rfl, k, hk⟩, rfl⟩
          | _ => exact .inl (hline ⟨nofun, rfl⟩)
      | _ => exact .inl (hword (t := id) (by simp) ⟨nofun, rfl⟩)
  · rw [load_of_ne hload]
    exact .inl (hword List.mem_cons_self ⟨nofun, rfl⟩)

/-! ## Up to the first statement -/

/-- A range passes over lines without words. -/
theorem rangeIn_blank {start stop : Int} {j : Nat} (hblank : p.Blank start (start + j))
    (hstop : start + j ≤ stop) (steps : Nat) (s : Session) :
    rangeIn (Reader.fresh p) c limit (j + steps) start stop s
      = rangeIn (Reader.fresh p) c limit steps (start + j) stop s := by
  induction j generalizing start with
  | zero => simp
  | succ j ih =>
    have hrest : p.Blank (start + 1) (start + 1 + j) :=
      fun m hlow hup => hblank m (by omega) (by omega)
    have hline : line (Reader.fresh p) c (rangeIn (Reader.fresh p) c limit (j + steps)) limit
        start s = .ok .next s := line_of_blank (hblank start (by omega) (by omega))
    rw [Nat.add_right_comm, rangeIn, if_pos (by omega), bind_of_ok hline]
    simp only
    rw [ih hrest (by omega), show start + 1 + (j : Int) = start + (j + 1 : Nat) from by omega]

/-- **A program is rejected, or it comes to its first statement**, and behind it there are enough
steps for the rest. -/
theorem program_begins (hsize : 0 < p.size) :
    (∃ e, p.Blames e ∧ ∀ c limit, program (Reader.fresh p) c limit {} = .error e {}) ∨
      ∃ n head args last, ∃ steps : Nat, p.Blank 1 n ∧ p.tokens n = .ok (head :: args) ∧
        p.Ends last ∧ n ≤ last ∧ p.size < n + steps ∧ ∀ c limit,
          program (Reader.fresh p) c limit {}
            = (load c n head args >>= fun _ =>
                rangeIn (Reader.fresh p) c limit steps (n + 1) (last + 1))
                  (({} : Session).entered n (Token.line (head :: args))) := by
  rcases ending_fresh p with ⟨e, he, hending⟩ | ⟨-, hending⟩ | ⟨last, hends, hending⟩
  · exact .inl ⟨e, he, fun c limit => bind_of_error (hending {})⟩
  · have hreports : p.Reports ⟨.emptyProgram, 1, 0⟩ :=
      ⟨Int.le_refl 1, Int.ofNat_le.2 hsize, .inl rfl, rfl⟩
    exact .inl ⟨_, ⟨_, rfl, by nofun, hreports⟩, fun c limit => bind_of_error (hending {})⟩
  · obtain ⟨hlow, hup⟩ := hends.bounds
    obtain ⟨n, hn, hnlast, hwords, hblank⟩ :
        ∃ n, 1 ≤ n ∧ n < last + 1 ∧ p.tokens n ≠ .ok [] ∧ p.Blank 1 n := by
      refine (p.blank_or_first 1 (last + 1)).resolve_left fun hblank => ?_
      obtain ⟨t, hts, -⟩ := hends.close
      cases hts.symm.trans (hblank last hlow (by omega))
    obtain ⟨j, rfl⟩ : ∃ j : Nat, n = 1 + j := ⟨(n - 1).toNat, by omega⟩
    -- the steps that are left on the first line with words
    obtain ⟨steps, hsteps⟩ : ∃ steps, p.size + 2 = j + (steps + 1) := ⟨p.size + 1 - j, by omega⟩
    have hprogram : ∀ c limit, program (Reader.fresh p) c limit {}
        = rangeIn (Reader.fresh p) c limit (steps + 1) (1 + j) (last + 1) {} := by
      intro c limit
      rw [program, bind_of_ok (hending {}), range, show (Reader.fresh p).size + 2 = _ from hsteps,
        rangeIn_blank hblank (by omega)]
    simp only [rangeIn, if_pos hnlast] at hprogram
    cases hts : p.tokens (1 + j) with
    | error e =>
      refine .inl ⟨e, Program.tokens_eq_error hn (by omega) hts, fun c limit => ?_⟩
      rw [hprogram, bind_of_error (line_of_fault hts)]
    | ok ts =>
      cases ts with
      | nil => exact absurd hts hwords
      | cons head args =>
        refine .inr ⟨1 + j, head, args, last, steps, hblank, hts, hends, by omega, by omega,
          fun c limit => ?_⟩
        have hline : line (Reader.fresh p) c (fun a b => rangeIn (Reader.fresh p) c limit steps a b)
            limit (1 + j) {} = _ := line_of_first hts rfl
        rw [hprogram]
        rcases load_cases c hts (({} : Session).entered (1 + j) (Token.line (head :: args))) with
          ⟨e, -, hload⟩ | ⟨id, k, m, -, -, -, -, hload⟩
        · rw [hload] at hline
          rw [bind_of_error hline, bind_of_error hload]
        · rw [hload] at hline
          rw [bind_of_ok hline, bind_of_ok hload]

variable {sessions : Session → Session → Prop} {stops : Stop → Session → Stop → Session → Prop}
  {excused : Stop → Prop}

/-- **Programs correspond if they do behind the first statement.** -/
theorem program_opening (hsize : 0 < p.size) (hloader : c'.loader = c.loader)
    (hstops : ∀ {e s}, c.Rejects e → stops e s e s)
    (hload : ∀ {k m n words}, p.Opens k → c.loader k = .ok m →
      sessions ((({} : Session).entered n words).loaded n k m)
        ((({} : Session).entered n words).loaded n k m))
    (hrange : ∀ {steps : Nat} {start stop : Int}, 1 ≤ start → start ≤ p.size + 1 →
      stop ≤ p.size + 1 → p.size + 1 < start + steps →
      Related (.abreast p sessions stops excused) Eq
        (rangeIn (Reader.fresh p) c limit steps start stop)
        (rangeIn (Reader.fresh p) c' limit' steps start stop)) :
    Matches (.abreast p sessions stops excused) Eq (program (Reader.fresh p) c limit {})
      (program (Reader.fresh p) c' limit' {}) := by
  rcases program_begins hsize with
    ⟨e, he, hprogram⟩ | ⟨n, head, args, last, steps, hblank, hts, hends, hle, hsteps, hprogram⟩
  · rw [hprogram, hprogram]
    exact .inr (hstops (.inl he.isFault))
  · have hsame : load c' n head args = load c n head args := by
      unfold load
      rw [hloader]
    have hbounds := hends.bounds
    obtain ⟨hlow, hup⟩ := Program.bounds_of_tokens hts
    rw [hprogram, hprogram, hsame]
    rcases load_cases c hts (({} : Session).entered n (Token.line (head :: args))) with
      ⟨e, he, hfails⟩ | ⟨id, k, m, hkind, rfl, hid, hm, hloads⟩
    · rw [bind_of_error hfails, bind_of_error hfails]
      exact .inr (hstops he.rejects)
    · rw [bind_of_ok hloads, bind_of_ok hloads]
      have hopens : p.Opens k := ⟨n, head, id, hts, hkind, hid, hblank⟩
      exact hrange (by omega) (by omega) (by omega) (by omega) _ _ (hload hopens hm)

end Exec

end RobotMaze

import RobotMaze.Proofs.Maze.Straight
import RobotMaze.Proofs.Program.Rows
import RobotMaze.Proofs.Run.Iterate
import RobotMaze.Proofs.Run.Opening
import RobotMaze.Proofs.Structured.Simulation

/-!
# Walking to the wall

A loop that moves forward while the front is clear makes as many rounds as there are free cells
before the robot.  It ends in front of the wall, unless a smaller cap stops it on the way.

* `Program.StraightLoop` — the lines of such a loop;
* `Session.Walked` — what its rounds have done;
* `Exec.iterate_walked` — one round;
* `Exec.rounds_walked` — all rounds, for every cap;
* `Exec.walk_to_wall` — the loop, wherever it stands in a program.
-/

namespace RobotMaze

open Step

variable {p : Program} {c : Config} {h a e last : Int} {s t : Session} {m : Maze} {i k : Nat}

/-- The lines of a loop that moves forward while the front is clear, with nothing but lines without
words between them. -/
structure Program.StraightLoop (p : Program) (h a e : Int) : Prop where
  opening : p.Reads h [utf8 "WHILE", utf8 "FRONT_IS_CLEAR"]
  move : p.Reads a [utf8 "MOVE_FORWARD"]
  close : p.Reads e [utf8 "END"]
  low : h < a
  up : a < e
  above : p.Blank (h + 1) a
  below : p.Blank (a + 1) e

/-- From session `s` on, with the maze `m`, the robot was moved forward `i` times by the line `a`,
and nothing else was done but to execute that line as often and one line more. -/
structure Session.Walked (s : Session) (m : Maze) (a : Int) (i : Nat) (t : Session) : Prop where
  maze : t.maze = some (m.advanced i)
  env : t.env = s.env
  warnings : t.warnings = s.warnings
  executed : t.executed = s.executed + (i + 1)
  events : Journal.events t.journal.toList = Journal.events s.journal.toList ++
    (List.range i).map fun j => ⟨a, .moveForward, none, m.advanced (j + 1)⟩

namespace Program.StraightLoop

theorem block_eq (hp : p.StraightLoop h a e) (hlast : p.last = .ok last) (he : e < last) :
    p.block h = .ok ⟨h, none, e⟩ := by
  obtain ⟨head, args, hopening, -⟩ := hp.opening.cons
  obtain ⟨move, more, hmove, hkind, -⟩ := hp.move.cons
  obtain ⟨close, rest, hclose, hkind', -⟩ := hp.close.cons
  have hlow := hp.low
  have hup := hp.up
  -- The lines down to the move, the lines down to the `END`, and what is left behind it.
  obtain ⟨j, hj⟩ : ∃ j : Nat, a = h + 1 + j := ⟨(a - h - 1).toNat, by omega⟩
  obtain ⟨j', hj'⟩ : ∃ j' : Nat, e = a + 1 + j' := ⟨(e - a - 1).toNat, by omega⟩
  obtain ⟨rest', hcount⟩ : ∃ rest' : Nat, (last - h - 1).toNat = j + (j' + (rest' + 1) + 1) :=
    ⟨(last - e - 1).toNat, by omega⟩
  rw [Program.block_eq, hlast, hopening]
  simp only [bind, Except.bind]
  rw [hcount, closeFrom_blank (hj ▸ hp.above), ← hj, closeFrom_succ, hmove]
  simp only [bind, Except.bind, hkind,
    show Line.kindOf "MOVE_FORWARD" = .action .moveForward from rfl]
  rw [closeFrom_blank (hj' ▸ hp.below), ← hj', closeFrom_succ, hclose]
  simp only [bind, Except.bind, hkind', show Line.kindOf "END" = .close from rfl]
  rfl

end Program.StraightLoop

namespace Exec

open Structured

/-- The condition of the loop shows whether the front is clear. -/
theorem condition_frontIsClear {args : List Token}
    (hargs : Token.literals args = [utf8 "FRONT_IS_CLEAR"]) (hm : t.maze = some m) :
    condition (Reader.fresh p) h args t = .ok m.frontIsClear { t with line := h } := by
  have hexpr : Expr.ofTokens args h = .ok ⟨⟨.sensor "FRONT_IS_CLEAR", 0⟩, []⟩ := by
    obtain ⟨w, rfl, hw⟩ := List.map_eq_singleton_iff.1 hargs
    rw [Expr.ofTokens, Token.line, hargs]
    rfl
  have hsense : Expr.eval { t.toScene with line := h } ⟨⟨.sensor "FRONT_IS_CLEAR", 0⟩, []⟩
      = .ok m.frontIsClear := by
    show (Scene.sense { t.toScene with line := h } (.sensor .frontIsClear) >>= fun v =>
      Except.ok (false || v)) = _
    rw [Scene.sense, hm]
    rfl
  rw [condition_apply, expr_apply hexpr]
  dsimp only
  rw [hsense]

/-- The line of the move moves the robot if its front is clear. -/
theorem line_moveForward {sub : Int → Int → Step Flow} {limit : Nat} {move : Token}
    (hlast : p.last = .ok last) (ha : a ≠ last) (hmove : p.tokens a = .ok [move])
    (hkind : move.kind = .action .moveForward) (ht : 0 < t.executed) (hm : t.maze = some m) :
    line (Reader.fresh p) c sub limit a t
      = .ok .next ((t.entered a (Token.line [move])).attempted m .moveForward) := by
  rw [line_apply hlast hmove, if_neg (by omega), if_neg ha, statement, hkind]
  have hentered : (t.entered a (Token.line [move])).maze = some m := hm
  have hact := act_of_some hentered .moveForward
  have hopens : m.opensBy .moveForward = false := by
    unfold Maze.opensBy
    cases m.perform .moveForward with
    | ok after => rfl
    | error reason => rfl
  dsimp only
  rw [bind_of_ok hact, hopens]
  rfl

/-- The body of the loop is one move. -/
theorem rangeIn_straight (limit : Nat) {steps : Nat} (hp : p.StraightLoop h a e)
    (hlast : p.last = .ok last) (he : e < last) (hsteps : e ≤ h + steps) (ht : 0 < t.executed)
    (hm : t.maze = some m) :
    ∃ words, rangeIn (Reader.fresh p) c limit steps (h + 1) e t
      = .ok .next ((t.entered a words).attempted m .moveForward) := by
  obtain ⟨move, more, hmove, hkind, -, hmore, -⟩ := hp.move.cons
  cases List.map_eq_nil_iff.1 hmore
  have hlow := hp.low
  have hup := hp.up
  obtain ⟨j, hj⟩ : ∃ j : Nat, a = h + 1 + j := ⟨(a - h - 1).toNat, by omega⟩
  obtain ⟨j', hj'⟩ : ∃ j' : Nat, e = a + 1 + j' := ⟨(e - a - 1).toNat, by omega⟩
  obtain ⟨rest, rfl⟩ : ∃ rest, steps = j + (j' + (rest + 1) + 1) :=
    ⟨steps - (j + j' + 2), by omega⟩
  refine ⟨Token.line [move], ?_⟩
  have hline : line (Reader.fresh p) c
      (fun x y => rangeIn (Reader.fresh p) c limit (j' + (rest + 1)) x y) limit a t = _ :=
    line_moveForward hlast (by omega) hmove hkind ht hm
  rw [rangeIn_blank (hj ▸ hp.above) (by omega), ← hj, rangeIn, if_pos hup, bind_of_ok hline]
  dsimp only
  rw [rangeIn_blank (hj' ▸ hp.below) (by omega), ← hj', rangeIn, if_neg (Int.lt_irrefl e)]
  rfl

end Exec

/-! ## Rounds -/

namespace Session

theorem Walked.settled (hw : s.Walked m a i t) (n : Int) : s.Walked m a i { t with line := n } :=
  { hw with }

/-- An accepted move by the line `a` makes one move more. -/
theorem Walked.moved (hw : s.Walked m a i t)
    (hmove : (m.advanced i).perform .moveForward = .ok (m.advanced (i + 1))) (words : Text) :
    s.Walked m a (i + 1) ((t.entered a words).attempted (m.advanced i) .moveForward) := by
  unfold attempted
  rw [hmove]
  refine ⟨rfl, hw.env, hw.warnings, ?_, ?_⟩
  · show t.executed + 1 = _
    rw [hw.executed]
    omega
  · show Journal.events ((t.journal.push _).push _).toList = _
    rw [Array.toList_push, Array.toList_push, Journal.events, List.filterMap_append,
      List.filterMap_append, List.range_succ, List.map_append, ← List.append_assoc, ← hw.events]
    simp [Journal.events, Entry.event?, entered]

end Session

namespace Exec

open Structured

section Rounds

variable (limit : Nat) {steps : Nat} {args : List Token}
  (hp : p.StraightLoop h a e) (hlast : p.last = .ok last) (he : e < last) (hsteps : e ≤ h + steps)
  (hargs : Token.literals args = [utf8 "FRONT_IS_CLEAR"]) (hwf : m.WellFormed) (hk : m.ClearFor k)

include hargs hwf hk in
/-- The condition holds up to the wall. -/
theorem condition_walked (hi : i ≤ k) (hw : s.Walked m a i t) :
    condition (Reader.fresh p) h args t = .ok (decide (i < k)) { t with line := h } := by
  rw [condition_frontIsClear hargs hw.maze, hk.frontIsClear_advanced hwf hi]

include hp hlast he hsteps hargs hwf hk

/-- **One round**: as long as there is a free cell before the robot, the loop goes on and the robot
has made one move more. -/
theorem iterate_walked (hi : i < k) (hw : s.Walked m a i t) :
    ∃ u, iterate (condition (Reader.fresh p) h args)
        (rangeIn (Reader.fresh p) c limit steps (h + 1) e) t = some u ∧
      s.Walked m a (i + 1) u := by
  have htest := condition_walked (p := p) (h := h) hargs hwf hk (Nat.le_of_lt hi) hw
  rw [decide_eq_true hi] at htest
  have hset := hw.settled h
  have hexecuted := hset.executed
  obtain ⟨words, hbody⟩ := rangeIn_straight (c := c) limit hp hlast he hsteps (by omega)
    hset.maze
  exact ⟨_, iterate_of htest hbody (by decide), hset.moved (hk.perform_advanced hwf hi) words⟩

/-- **All rounds** that are left after `i` of them: the loop comes to the wall, or to its cap if the
cap is smaller. -/
theorem rounds_walked (cap : Int) (exit : Flow) (granted : Nat) (hi : i ≤ k)
    (hcap : 0 < cap → i ≤ cap) (hw : s.Walked m a i t) :
    (cap ≤ 0 ∨ k ≤ cap → k < i + granted →
      ∃ u, rounds (condition (Reader.fresh p) h args)
          (rangeIn (Reader.fresh p) c limit steps (h + 1) e) exit cap h granted i t = .ok exit u ∧
        s.Walked m a k u) ∧
    (0 < cap → cap < k → cap < i + granted →
      ∃ u, rounds (condition (Reader.fresh p) h args)
          (rangeIn (Reader.fresh p) c limit steps (h + 1) e) exit cap h granted i t
            = .error (exceeded cap h) u ∧
        s.Walked m a cap.toNat u) := by
  induction granted generalizing i t with
  | zero =>
    refine ⟨fun _ hgranted => by omega, fun hpos _ hgranted => ?_⟩
    have hle := hcap hpos
    omega
  | succ granted ih =>
    have htest := condition_walked (p := p) (h := h) hargs hwf hk hi hw
    by_cases hwall : i = k
    · subst hwall
      rw [decide_eq_false (Nat.lt_irrefl i)] at htest
      refine ⟨fun _ _ => ⟨_, rounds_of_false htest, hw.settled h⟩, fun hpos hlt _ => ?_⟩
      have hle := hcap hpos
      omega
    · have hlt : i < k := by omega
      rw [decide_eq_true hlt] at htest
      by_cases hspent : Spent cap i
      · obtain ⟨hpos, hle⟩ := hspent
        have hcount : cap.toNat = i := by
          have := hcap hpos
          omega
        refine ⟨fun hc _ => by omega, fun _ _ _ => ⟨_, rounds_of_spent htest ⟨hpos, hle⟩, ?_⟩⟩
        rw [hcount]
        exact hw.settled h
      · obtain ⟨u, hnext, hu⟩ := iterate_walked (c := c) limit hp hlast he hsteps hargs hwf hk hlt
          hw
        have hcap' : 0 < cap → ((i + 1 : Nat) : Int) ≤ cap := fun hpos => by
          have hmore : ¬ cap ≤ i := fun hle => hspent ⟨hpos, hle⟩
          omega
        rw [rounds_of_iterate hnext hspent]
        obtain ⟨hends, hfails⟩ := ih hlt hcap' hu
        exact ⟨fun hc hgranted => hends hc (by omega),
          fun hpos hless hgranted => hfails hpos hless (by omega)⟩

end Rounds

/-! ## The loop -/

/-- The line of the loop counts once; then the rounds are made. -/
theorem line_straight (limit steps : Nat) (hp : p.StraightLoop h a e) (hlast : p.last = .ok last)
    (he : e < last) (hs : 0 < s.executed) (hm : s.maze = some m) :
    ∃ args words, Token.literals args = [utf8 "FRONT_IS_CLEAR"] ∧
      s.Walked m a 0 (s.entered h words) ∧
      line (Reader.fresh p) c (rangeIn (Reader.fresh p) c limit steps) limit h s
        = rounds (condition (Reader.fresh p) h args)
          (rangeIn (Reader.fresh p) c limit steps (h + 1) e) (.jump (e + 1)) c.cap h limit 0
          (s.entered h words) := by
  obtain ⟨head, args, hts, hkind, -, hargs, -⟩ := hp.opening.cons
  have hlow := hp.low
  have hup := hp.up
  refine ⟨args, Token.line (head :: args), hargs, ⟨hm, rfl, rfl, rfl, ?_⟩, ?_⟩
  · show Journal.events (s.journal.push _).toList = _
    rw [Array.toList_push, Journal.events, List.filterMap_append]
    rfl
  · rw [line_apply hlast hts, if_neg (by omega), if_neg (by omega), statement, hkind]
    exact bind_of_ok (block_apply (hp.block_eq hlast he) _)

/-- What a step does without memory, it does with memory, too. -/
theorem recalled_of_related {α β : Type} {values : α → β → Prop} {x : Step α} {y : Step β}
    (hxy : Related (.forgetting p) values x y) (hmemo : s.memo.Coherent p) :
    (∀ b u, y s.bare = .ok b u → ∃ a t, x s = .ok a t ∧ values a b ∧ t.bare = u) ∧
      ∀ e u, y s.bare = .error e u → ∃ t, x s = .error e t ∧ t.bare = u := by
  have hmatches := hxy s s.bare ⟨rfl, hmemo⟩
  constructor
  · intro b u hu
    rw [hu] at hmatches
    cases hx : x s with
    | error e t =>
      rw [hx] at hmatches
      exact hmatches.elim
    | ok a t =>
      rw [hx] at hmatches
      obtain ⟨hvalues, rfl, -⟩ := hmatches
      exact ⟨a, t, rfl, hvalues, rfl⟩
  · intro e u hu
    rw [hu] at hmatches
    cases hx : x s with
    | ok a t =>
      rw [hx] at hmatches
      exact hmatches.elim
    | error e' t =>
      rw [hx] at hmatches
      obtain ⟨rfl, rfl, -⟩ := hmatches.resolve_left id
      exact ⟨t, rfl, rfl⟩

/-- A line is executed in the same way whether or not the program is remembered. -/
theorem related_line_forgets (limit : Nat) {steps : Nat} {n : Int} (hlow : 1 ≤ n) (hup : n ≤ p.size)
    (hsteps : p.size < n + steps) :
    Related (.forgetting p) (Onward (.forgetting p) n n)
      (line (Reader.kept p) c (rangeIn (Reader.kept p) c limit steps) limit n)
      (line (Reader.fresh p) c (rangeIn (Reader.fresh p) c limit steps) limit n) := by
  have hparallel := parallel_forgets (p := p) (c := c)
  have hloops : Loops (.forgetting p) p (Reader.kept p) (Reader.fresh p) c c limit limit :=
    hparallel.loops (.equal fun s t hst => ⟨rfl, hst⟩) (fun j _ => id)
      fun j n hj => .inr ⟨hj, fun s t hst => ⟨rfl, hst⟩⟩
  have hbelow : Below (.forgetting p) n n (rangeIn (Reader.kept p) c limit steps)
      (rangeIn (Reader.fresh p) c limit steps) := by
    rintro _ x _ y ⟨rfl, hx, hx'⟩ ⟨rfl, -, hy⟩ hlt -
    exact hparallel.related_rangeIn hloops hx hx' hy (by omega)
  refine hparallel.related_line ⟨rfl, hlow, hup⟩ hbelow ?_
  intro head args head' args' hts hts' hkind
  cases hts.symm.trans hts'
  exact hloops hts hkind hsteps hbelow

theorem eq_jump_of_onward {n next : Int} {flow : Flow}
    (hflow : Onward (.forgetting p) n n flow (.jump next)) : flow = .jump next := by
  cases flow with
  | jump line =>
    obtain ⟨⟨rfl, -⟩, -⟩ := hflow
    rfl
  | _ => exact hflow.elim

/-- **Walking to the wall.**  In every maze that attempts can lead to there is a first wall before
the robot, `k` free cells away.  A loop that moves forward while the front is clear, wherever it
stands in a program, makes `k` moves if its cap allows them; then the robot stands before the wall
and the run goes on behind the `END`.  With a smaller cap the loop fails after as many moves as the
cap allows. -/
theorem walk_to_wall {actions : List Action} {steps : Nat} (hp : p.StraightLoop h a e)
    (hlast : p.last = .ok last) (he : e < last) (hsteps : p.size < h + steps) (hm : m.Built)
    (hmaze : s.maze = some (m.after actions)) (hs : 0 < s.executed) (hmemo : s.memo.Coherent p) :
    ∃ k, (m.after actions).ClearFor k ∧ ∀ limit : Nat,
      (c.cap ≤ 0 ∨ k ≤ c.cap → k < limit →
        ∃ t, line (Reader.kept p) c (rangeIn (Reader.kept p) c limit steps) limit h s
            = .ok (.jump (e + 1)) t ∧
          (∀ stop, h < stop → rangeIn (Reader.kept p) c limit (steps + 1) h stop s
            = rangeIn (Reader.kept p) c limit steps (e + 1) stop t) ∧
          s.Walked (m.after actions) a k t ∧
          (m.after actions).Advances k ((m.after actions).advanced k) ∧
          ((m.after actions).advanced k).frontIsClear = false) ∧
      (0 < c.cap → c.cap < k → c.cap < limit →
        ∃ t, line (Reader.kept p) c (rangeIn (Reader.kept p) c limit steps) limit h s
            = .error (.failed ⟨.loopExceeded c.cap, h, 0⟩) t ∧
          s.Walked (m.after actions) a c.cap.toNat t) := by
  have hwf := (hm.wellFormed.after actions).1
  obtain ⟨k, hk, -⟩ := hwf.existsUnique_clearFor
  obtain ⟨head, args, hts, -⟩ := hp.opening.cons
  obtain ⟨hlow, hup⟩ := Program.bounds_of_tokens hts
  obtain ⟨close, rest, hclose, -⟩ := hp.close.cons
  have hbody : e ≤ h + steps := by
    have := (Program.bounds_of_tokens hclose).2
    omega
  refine ⟨k, hk, fun limit => ?_⟩
  obtain ⟨args, words, hargs, hw, hline⟩ := line_straight (c := c) (s := s.bare) limit
    steps hp hlast he hs hmaze
  obtain ⟨hends, hfails⟩ := rounds_walked (c := c) limit hp hlast he hbody hargs hwf hk
    c.cap (.jump (e + 1)) limit (Nat.zero_le k) (fun hpos => Int.le_of_lt hpos) hw
  obtain ⟨hjumps, hstops⟩ :=
    recalled_of_related (related_line_forgets (c := c) limit hlow hup hsteps) hmemo
  rw [Nat.zero_add] at hends
  constructor
  · intro hcap hlimit
    obtain ⟨u, hu, hwalked⟩ := hends hcap hlimit
    obtain ⟨flow, t, ht, hflow, rfl⟩ := hjumps _ _ (hline.trans hu)
    rw [eq_jump_of_onward hflow] at ht
    refine ⟨t, ht, fun stop hstop => ?_, ?_, hk.advances hwf (Nat.le_refl k), ?_⟩
    · rw [rangeIn, if_pos hstop, bind_of_ok ht]
    · exact ⟨hwalked.maze, hwalked.env, hwalked.warnings, hwalked.executed, hwalked.events⟩
    · rw [hk.frontIsClear_advanced hwf (Nat.le_refl k), decide_eq_false (Nat.lt_irrefl k)]
  · intro hpos hless hlimit
    obtain ⟨u, hu, hwalked⟩ := hfails hpos hless (by omega)
    obtain ⟨t, ht, rfl⟩ := hstops _ _ (hline.trans hu)
    exact ⟨t, ht, hwalked.maze, hwalked.env, hwalked.warnings, hwalked.executed, hwalked.events⟩

/-- A program that walks to the wall, with an empty line in its loop. -/
def straightOn : Program :=
  .ofSource (utf8 "LOAD 1\nWHILE FRONT_IS_CLEAR\n\n  MOVE_FORWARD\nEND\nEND")

/-- In the corridor of `twoKeys`, behind the first key, there are three free cells before the robot.
With a cap of three the program walks to the wall; with a cap of two it fails. -/
theorem straightOn_walks_to_wall :
    ∃ m, Maze.ofRows Maze.twoKeys 3 (some ⟨4, 1⟩) = .ok m ∧ ∀ loader,
      (∃ t, line (Reader.kept straightOn) ⟨loader, 3⟩ (rangeIn (Reader.kept straightOn) ⟨loader, 3⟩
            4 5) 4 2 { maze := some (m.after [.moveForward, .pickKey]), executed := 3 }
          = .ok (.jump 6) t ∧ t.executed = 7) ∧
      ∃ t, line (Reader.kept straightOn) ⟨loader, 2⟩ (rangeIn (Reader.kept straightOn) ⟨loader, 2⟩
            4 5) 4 2 { maze := some (m.after [.moveForward, .pickKey]), executed := 3 }
          = .error (.failed ⟨.loopExceeded 2, 2, 0⟩) t ∧ t.executed = 6 := by
  have hrows : Maze.ofRows Maze.twoKeys 3 (some ⟨4, 1⟩)
      = .ok (Maze.ofDrawing Maze.twoKeys ⟨1, 1⟩ ⟨3, 1⟩ ⟨5, 1⟩ ⟨4, 1⟩ .east) := rfl
  refine ⟨_, hrows, fun loader => ?_⟩
  have hp : straightOn.StraightLoop 2 4 5 := by
    refine ⟨⟨_, rfl, rfl, by decide⟩, ⟨_, rfl, rfl, by decide⟩, ⟨_, rfl, rfl, by decide⟩, by decide,
      by decide, fun n hlow hup => ?_, fun n hlow hup => by omega⟩
    obtain rfl : n = 3 := by omega
    rfl
  have hm := Maze.Built.rows hrows
  have hclear : Maze.ClearFor (Maze.after (Maze.ofDrawing Maze.twoKeys ⟨1, 1⟩ ⟨3, 1⟩ ⟨5, 1⟩ ⟨4, 1⟩
      .east) [.moveForward, .pickKey]) 3 := by
    refine ⟨fun i hlow hup => ?_, rfl⟩
    obtain rfl | rfl | rfl : i = 1 ∨ i = 2 ∨ i = 3 := by omega
    · rfl
    · rfl
    · rfl
  have hexists := (hm.wellFormed.after [.moveForward, .pickKey]).1.existsUnique_clearFor
  have hsize : (straightOn.size : Int) < 2 + (5 : Nat) := by decide
  constructor
  · obtain ⟨k, hk, hloop⟩ := walk_to_wall (c := ⟨loader, 3⟩) hp rfl (by decide) hsize hm
      (s := { maze := some (Maze.after _ [.moveForward, .pickKey]), executed := 3 }) rfl
      (Nat.succ_pos 2) (Memo.coherent_empty _)
    obtain rfl := hexists.unique hk hclear
    obtain ⟨t, ht, -, hw, -⟩ := (hloop 4).1 (.inr (Int.le_refl 3)) (Nat.lt_succ_self 3)
    exact ⟨t, ht, hw.executed⟩
  · obtain ⟨k, hk, hloop⟩ := walk_to_wall (c := ⟨loader, 2⟩) hp rfl (by decide) hsize hm
      (s := { maze := some (Maze.after _ [.moveForward, .pickKey]), executed := 3 }) rfl
      (Nat.succ_pos 2) (Memo.coherent_empty _)
    obtain rfl := hexists.unique hk hclear
    obtain ⟨t, ht, hw⟩ := (hloop 4).2 (show (0 : Int) < 2 by decide) (show (2 : Int) < 3 by decide)
      (show (2 : Int) < 4 by decide)
    exact ⟨t, ht, hw.executed⟩

end Exec

end RobotMaze

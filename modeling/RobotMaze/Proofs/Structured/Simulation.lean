import RobotMaze.Proofs.Run.Memo
import RobotMaze.Proofs.Structured.Layout
import RobotMaze.Proofs.Structured.Realizes

/-!
# Runs of structured programs

A run executes lines and jumps over blocks.  On the source of a structured program it does what the
tree of the program tells.

* `line_apply` — how a line is executed in a world;
* `realizes_act`, `realizes_assign`, `realizes_branch`, `realizes_loop` — the lines of a statement
  realize what the statement does.
-/

namespace RobotMaze.Structured

open Behaviour Step

variable {p : Program} {c : Config} {last n : Int}

/-! ## Look-ups -/

theorem tokens_apply {ts : List Token} (h : p.tokens n = .ok ts) (s : Session) :
    (Reader.fresh p).tokens n s = .ok ts s := ofExcept_of_ok h s

theorem last_apply (h : p.last = .ok last) (s : Session) :
    (Reader.fresh p).last s = .ok last s := ofExcept_of_ok h s

theorem block_apply {b : Block} (h : p.block n = .ok b) (s : Session) :
    (Reader.fresh p).block n s = .ok b s := ofExcept_of_ok h s

theorem expr_apply {args : List Token} {e : Expr} (h : Expr.ofTokens args n = .ok e)
    (s : Session) : (Reader.fresh p).expr n args s = .ok e s := by
  have hread : (Expr.ofTokens args n).mapError Stop.failed = .ok e := by
    rw [h]
    rfl
  exact ofExcept_of_ok hread s

/-! ## Lines -/

/-- A line is entered; the first one loads the maze, and the last one halts. -/
theorem line_apply {sub : Int → Int → Step Flow} {limit : Nat} {head : Token} {args : List Token}
    (hlast : p.last = .ok last) (hts : p.tokens n = .ok (head :: args)) (s : Session) :
    Exec.line (Reader.fresh p) c sub limit n s
      = (if s.executed + 1 = 1 then Exec.load c n head args
        else if n = last then pure .halt
        else Exec.statement (Reader.fresh p) c sub limit n head args)
          (s.entered n (Token.line (head :: args))) := by
  have hisLast : Exec.isLast (Reader.fresh p) n (s.entered n (Token.line (head :: args)))
      = .ok (n == last) (s.entered n (Token.line (head :: args))) := by
    rw [Exec.isLast_apply, last_apply hlast]
  rw [Exec.line, bind_of_ok (tokens_apply hts s)]
  -- the line is counted before it is asked whether it is the first
  show (if s.executed + 1 = 1 then _ else _ : Step Flow) (s.entered n _) = _
  split
  · rfl
  · rw [bind_of_ok hisLast]
    by_cases hn : n = last
    · rw [if_pos hn, if_pos (beq_iff_eq.2 hn)]
    · rw [if_neg hn, if_neg (fun h => hn (beq_iff_eq.1 h))]

/-- A line between the first and the last is entered and its statement executed. -/
theorem line_statement {sub : Int → Int → Step Flow} {limit : Nat} {head : Token}
    {args : List Token} (hlast : p.last = .ok last) (hn : n < last)
    (hts : p.tokens n = .ok (head :: args)) (w : World) (line : Int) :
    Exec.line (Reader.fresh p) c sub limit n (w.session line)
      = Exec.statement (Reader.fresh p) c sub limit n head args
          ((w.enter n (Token.literals (head :: args))).session n) := by
  have hfirst : (w.session line).executed + 1 ≠ 1 := by simp [World.session]
  rw [line_apply hlast hts, if_neg hfirst, if_neg (by omega)]
  rfl

theorem line_last {sub : Int → Int → Step Flow} {limit : Nat} {head : Token} {args : List Token}
    (hlast : p.last = .ok n) (hts : p.tokens n = .ok (head :: args)) (w : World) (line : Int) :
    Exec.line (Reader.fresh p) c sub limit n (w.session line)
      = .ok .halt ((w.enter n (Token.literals (head :: args))).session n) := by
  have hfirst : (w.session line).executed + 1 ≠ 1 := by simp [World.session]
  rw [line_apply hlast hts, if_neg hfirst, if_pos rfl]
  rfl

/-! ## Statements -/

theorem Phrase.words_ne_nil (e : Phrase) : e.words ≠ [] := by
  intro h
  have hvalid := e.valid
  rw [h] at hvalid
  cases hvalid

/-- The tokens of an expression stand for it. -/
theorem Phrase.ofTokens (e : Phrase) {args : List Token} (hargs : Token.literals args = e.words)
    (n : Int) : Expr.ofTokens args n = .ok e.expr := by
  match args, hargs with
  | [], hargs => exact absurd hargs.symm e.words_ne_nil
  | first :: more, hargs =>
    simp only [Expr.ofTokens, Token.line, hargs, e.valid]

/-- The tokens of an expression tell its value. -/
theorem tests_condition {e : Phrase} {args : List Token} (hargs : Token.literals args = e.words) :
    Tests (Exec.condition (Reader.fresh p) n args) n e := by
  intro w line
  rw [Exec.condition, bind_of_ok (expr_apply (e.ofTokens hargs n) _), bind_modify, bind_get,
    World.value]
  dsimp only [World.session]
  cases e.expr.eval { line := n, env := w.env, maze := some w.maze } with
  | ok value => rfl
  | error err => rfl

theorem act_apply (w : World) (a : Action) :
    Exec.act (.action a) (w.session n) = match w.maze.perform a with
      | .ok m =>
        .ok (a == .openDoor && m.isSolved)
          (({ w with maze := m }.note (.acted ⟨n, a, none, m⟩)).session n)
      | .error reason =>
        .ok false (({ w with warnings := w.warnings.push ⟨a, reason⟩ }.note
          (.acted ⟨n, a, some reason, w.maze⟩)).session n) := by
  rw [Exec.act, bind_get]
  dsimp only [World.session]
  cases w.maze.perform a with
  | ok m => rfl
  | error reason => rfl

/-- A door that opens solves the maze. -/
theorem isSolved_of_openDoor {m m' : Maze} (h : m.perform .openDoor = .ok m') :
    m'.isSolved = true := by
  obtain ⟨-, rfl⟩ := Maze.openDoor_eq_ok_iff.1 h
  rw [Maze.isSolved, Bool.or_eq_true]
  exact .inr rfl

theorem statement_act {sub : Int → Int → Step Flow} {limit : Nat} {head : Token} {a : Action}
    (hhead : head.kind = .action a) (w : World) :
    Exec.statement (Reader.fresh p) c sub limit n head [] (w.session n)
      = (w.act n a).result .next n := by
  have hact := act_apply (n := n) w a
  rw [Exec.statement, hhead]
  simp only
  unfold World.act
  cases hm : w.maze.perform a with
  | ok m =>
    rw [hm] at hact
    rw [bind_of_ok hact]
    by_cases ha : a = .openDoor
    · subst ha
      rw [isSolved_of_openDoor hm]
      rfl
    · simp only [beq_eq_false_iff_ne.2 ha, if_neg ha, Bool.false_and, Bool.false_eq_true, if_false]
      rfl
  | error reason =>
    rw [hm] at hact
    rw [bind_of_ok hact]
    rfl

theorem statement_assign {sub : Int → Int → Step Flow} {limit : Nat} {x : Name} {e : Phrase}
    {head op : Token} {args : List Token} (hhead : head.kind = .ident)
    (hname : head.literal = x.word) (hop : op.kind = .assign)
    (hargs : Token.literals args = e.words) (w : World) :
    Exec.statement (Reader.fresh p) c sub limit n head (op :: args) (w.session n)
      = (w.assign n x e).result .next n := by
  have htest := tests_condition (p := p) (n := n) hargs w n
  match args, hargs, htest with
  | [], hargs, _ => exact absurd hargs.symm e.words_ne_nil
  | first :: more, hargs, htest =>
    rw [Exec.statement, hhead]
    simp only [Exec.assign, if_pos hop]
    unfold World.assign
    cases hvalue : w.value n e with
    | ok value =>
      rw [hvalue] at htest
      rw [bind_of_ok htest, hname]
      rfl
    | error err =>
      rw [hvalue] at htest
      rw [bind_of_error htest]
      rfl

theorem branch_apply {sub : Int → Int → Step Flow} {e : Phrase} {args : List Token} {b : Block}
    (hblock : p.block n = .ok b) (hargs : Token.literals args = e.words) (w : World) :
    Exec.branch (Reader.fresh p) sub n args (w.session n) = match w.value n e with
      | .ok value =>
        (sub (b.chosen value).1 (b.chosen value).2 >>= unlessHalted (pure (.jump (b.close + 1))))
          (w.session n)
      | .error err => .error (.failed err) (w.session n) := by
  have htest := tests_condition (p := p) (n := n) hargs w n
  rw [Exec.branch, bind_of_ok (block_apply hblock _)]
  cases hvalue : w.value n e with
  | ok value =>
    rw [hvalue] at htest
    rw [bind_of_ok htest]
    rfl
  | error err =>
    rw [hvalue] at htest
    rw [bind_of_error htest]

/-! ## Statements realize their behaviours -/

section Line

variable {sub : Nat → Int → Int → Step Flow} {e : Phrase}

/-- A line of words is entered and its statement executed. -/
theorem line_reads {words rest : List Text} {first : Text} (hlast : p.last = .ok last)
    (hn : n < last) (h : p.Reads n words) (hwords : words = first :: rest) :
    ∃ head args, head.kind = Line.kindOf first ∧ head.literal = first ∧
      Token.literals args = rest ∧ (∀ t ∈ args, t.kind = Line.kindOf t.literal) ∧
      ∀ (sub : Int → Int → Step Flow) (limit : Nat) (w : World) (line : Int),
        Exec.line (Reader.fresh p) c sub limit n (w.session line)
          = Exec.statement (Reader.fresh p) c sub limit n head args
              ((w.enter n words).session n) := by
  subst hwords
  obtain ⟨head, args, hts, hkind, hfirst, hargs, hkinds⟩ := h.cons
  refine ⟨head, args, hkind, hfirst, hargs, hkinds, fun sub limit w line => ?_⟩
  rw [line_statement hlast hn hts, Token.literals, List.map_cons, hfirst, ← hargs]
  rfl

theorem realizes_act {a : Action} (hlast : p.last = .ok last) (hn : n < last)
    (h : p.Reads n (Action.words a)) :
    Realizes .next (fun limit => Exec.line (Reader.fresh p) c (sub limit) limit n)
      (entering n (Action.words a) (exactly fun w => w.act n a)) := by
  obtain ⟨head, args, hkind, -, hargs, -, hline⟩ := line_reads (c := c) hlast hn h rfl
  cases List.map_eq_nil_iff.1 hargs
  rw [Code.kindOf_action] at hkind
  intro w line
  simp only [hline, statement_act hkind]
  exact settles_result _ n

theorem realizes_assign {x : Name} (hlast : p.last = .ok last) (hn : n < last)
    (h : p.Reads n (e.assigned x)) :
    Realizes .next (fun limit => Exec.line (Reader.fresh p) c (sub limit) limit n)
      (entering n (e.assigned x) (exactly fun w => w.assign n x e)) := by
  obtain ⟨head, args, hkind, hname, hargs, hkinds, hline⟩ := line_reads (c := c) hlast hn h rfl
  rw [x.isIdent] at hkind
  match args, hargs with
  | op :: args, hargs =>
    rw [Token.literals, List.map_cons, List.cons.injEq] at hargs
    have hop : op.kind = .assign := by
      rw [hkinds op List.mem_cons_self, hargs.1]
      exact Line.kindOf_text (by decide)
    intro w line
    simp only [hline, statement_assign hkind hname hop hargs.2]
    exact settles_result _ n

/-- A branch picks the lines to execute and then jumps behind its block. -/
theorem realizes_branch {b : Block} {yes no : Behaviour} (hlast : p.last = .ok last) (hn : n < last)
    (h : p.Reads n (e.opening .branch)) (hblock : p.block n = .ok b)
    (hyes : Realizes .next (fun limit => sub limit (b.chosen true).1 (b.chosen true).2) yes)
    (hno : Realizes .next (fun limit => sub limit (b.chosen false).1 (b.chosen false).2) no) :
    Realizes (.jump (b.close + 1)) (fun limit => Exec.line (Reader.fresh p) c (sub limit) limit n)
      (entering n (e.opening .branch) (choose n e yes no)) := by
  obtain ⟨head, args, hkind, -, hargs, -, hline⟩ := line_reads (c := c) hlast hn h rfl
  rw [Line.kindOf_text (by decide)] at hkind
  intro w line
  simp only [hline, Exec.statement, hkind, branch_apply hblock hargs]
  unfold entering choose
  cases (w.enter n (e.opening .branch)).value n e with
  | ok value =>
    cases value with
    | true => exact hyes.jump _ _ n
    | false => exact hno.jump _ _ n
  | error err => exact settles_result (.fails err _) n

/-- A loop repeats its lines and then jumps behind its block. -/
theorem realizes_loop {b : Block} {body : Behaviour} (hlast : p.last = .ok last) (hn : n < last)
    (h : p.Reads n (e.opening .loop)) (hblock : p.block n = .ok b)
    (hbody : Realizes .next (fun limit => sub limit (n + 1) b.close) body) :
    Realizes (.jump (b.close + 1)) (fun limit => Exec.line (Reader.fresh p) c (sub limit) limit n)
      (entering n (e.opening .loop) (Rounds c.cap n e body 0)) := by
  obtain ⟨head, args, hkind, -, hargs, -, hline⟩ := line_reads (c := c) hlast hn h rfl
  rw [Line.kindOf_text (by decide)] at hkind
  intro w line
  simp only [hline, Exec.statement, hkind, Exec.loop, bind_of_ok (block_apply hblock _)]
  exact realizes_rounds (tests_condition hargs) hbody _ n

end Line

end RobotMaze.Structured

import RobotMaze.Run
import RobotMaze.Proofs.Program.Lookup
import RobotMaze.Proofs.Program.Nesting
import RobotMaze.Proofs.Run.Related
import Mathlib.Data.List.Forall2

/-!
# Runs side by side

Two runs are compared operation by operation: what they look up about their programs, how they
change their sessions, and why they stop.  If these correspond, then so do the lines that are
executed from them, with all that belongs to a statement.

* `Exec.Parallel` — the single operations of two runs correspond;
* `Exec.related_rounds` — loops that make the same rounds correspond;
* `Exec.Parallel.related_line` — corresponding lines are executed in corresponding ways.
-/

namespace RobotMaze

open Step

/-- The part of a line's tokens that is its expression: what stands after `:=` on an assignment,
and after the first word elsewhere. -/
def Token.exprPart : List Token → List Token
  | [] => []
  | head :: args => if head.kind = .ident then args.drop 1 else args

theorem Token.exprPart_subset (ts : List Token) : Token.exprPart ts ⊆ ts := by
  cases ts with
  | nil => exact List.Subset.refl []
  | cons head args =>
    rw [Token.exprPart]
    split
    · exact List.subset_cons_of_subset head (List.drop_subset 1 args)
    · exact List.subset_cons_of_subset head (List.Subset.refl args)

/-! ## Values of expressions -/

section

variable {texts : Text → Text} {s t : Scene}

/-- Two terms of which the second calls names as `texts` tells. -/
inductive Term.Alike (texts : Text → Text) : Term → Term → Prop where
  | literal (word : Text) : Alike texts (.literal word) (.literal word)
  | sensor (word : Text) : Alike texts (.sensor word) (.sensor word)
  | name (word : Text) : Alike texts (.name word) (.name (texts word))
  | blank : Alike texts .blank .blank

/-- Two links of expressions, of which the second calls names as `texts` tells. -/
abbrev Expr.LinkAlike (texts : Text → Text) (link link' : Connective × Operand) : Prop :=
  link'.1 = link.1 ∧ link.2.term.Alike texts link'.2.term

/-- Two expressions of which the second calls names as `texts` tells. -/
structure Expr.Alike (texts : Text → Text) (e e' : Expr) : Prop where
  head : e.head.term.Alike texts e'.head.term
  tail : List.Forall₂ (LinkAlike texts) e.tail e'.tail

theorem Term.Alike.refl (term : Term) : term.Alike id term := by
  cases term with
  | literal word => exact .literal word
  | sensor word => exact .sensor word
  | name word => exact .name word
  | blank => exact .blank

theorem Expr.Alike.refl (e : Expr) : e.Alike id e :=
  ⟨.refl _, List.forall₂_same.2 fun _ _ => ⟨rfl, .refl _⟩⟩

/-- The same value, or the same fault, on the lines `n` and `n'`. -/
def SameValue (texts : Text → Text) (n n' : Int) : Except Error Bool → Except Error Bool → Prop
  | .ok v, .ok v' => v' = v
  | .error e, .error e' =>
    ∃ fault : Fault, fault.Uncapped ∧ e = ⟨fault, n, 0⟩ ∧ e' = ⟨fault.reword texts, n', 0⟩
  | _, _ => False

/-- Two scenes that show the same, apart from their lines. -/
structure Scene.Alike (texts : Text → Text) (s t : Scene) : Prop where
  env : ∀ x, t.env.get? (texts x) = s.env.get? x
  maze : t.maze = s.maze

theorem Scene.Alike.sense (h : s.Alike texts t) (kind : Kind) :
    SameValue texts s.line t.line (s.sense kind) (t.sense kind) := by
  unfold Scene.sense
  cases kind with
  | sensor sensor =>
    rw [h.maze]
    cases s.maze with
    | none => exact ⟨_, by nofun, rfl, rfl⟩
    | some m => rfl
  | _ => exact ⟨_, by nofun, rfl, rfl⟩

theorem Scene.Alike.eval_term (h : s.Alike texts t) {term term' : Term}
    (hterm : term.Alike texts term') :
    SameValue texts s.line t.line (term.eval s) (term'.eval t) := by
  cases hterm with
  | literal word => rfl
  | sensor word => exact h.sense _
  | name word =>
    simp only [Term.eval, h.env]
    cases s.env.get? word with
    | none => exact ⟨_, by nofun, rfl, rfl⟩
    | some value => rfl
  | blank => exact ⟨_, by nofun, rfl, rfl⟩

theorem SameValue.bind {n n' : Int} {x x' : Except Error Bool} {f f' : Bool → Except Error Bool}
    (hx : SameValue texts n n' x x') (hf : ∀ v, SameValue texts n n' (f v) (f' v)) :
    SameValue texts n n' (x >>= f) (x' >>= f') := by
  cases x with
  | ok v =>
    cases x' with
    | ok v' =>
      cases hx
      exact hf v
    | error e' => exact hx.elim
  | error e =>
    cases x' with
    | ok v' => exact hx.elim
    | error e' => exact hx

theorem Scene.Alike.evalTail (h : s.Alike texts t) {tail tail' : List (Connective × Operand)}
    (htail : List.Forall₂ (Expr.LinkAlike texts) tail tail') (value group : Bool) :
    SameValue texts s.line t.line (Expr.evalTail s value group tail)
      (Expr.evalTail t value group tail') := by
  induction htail generalizing value group with
  | nil => rfl
  | @cons link link' rest rest' hlink _ ih =>
    obtain ⟨_, o⟩ := link
    obtain ⟨c, o'⟩ := link'
    obtain ⟨rfl, hterm⟩ := hlink
    refine (h.eval_term hterm).bind fun v => ?_
    cases c with
    | or => exact ih _ _
    | and => exact ih _ _

/-- Expressions that differ in their names have the same value in scenes that show the same. -/
theorem Scene.Alike.eval (h : s.Alike texts t) {e e' : Expr} (he : e.Alike texts e') :
    SameValue texts s.line t.line (e.eval s) (e'.eval t) :=
  (h.eval_term he.head).bind fun _ => h.evalTail he.tail _ _

end

/-! ## Changes of a session -/

namespace Session

/-- The session with an entry in its journal. -/
def noted (s : Session) (e : Entry) : Session := { s with journal := s.journal.push e }

/-- A line is entered. -/
def entered (s : Session) (n : Int) (words : Text) : Session :=
  { s with line := n, executed := s.executed + 1, journal := s.journal.push (.line n words) }

/-- The robot has tried an action in the maze `m`. -/
def attempted (s : Session) (m : Maze) (a : Action) : Session :=
  match m.perform a with
  | .ok after => { s with maze := some after }.noted (.acted ⟨s.line, a, none, after⟩)
  | .error reason =>
    { s with warnings := s.warnings.push ⟨a, reason⟩ }.noted (.acted ⟨s.line, a, some reason, m⟩)

/-- A variable is set on line `n`. -/
def assigned (s : Session) (n : Int) (x : Text) (value : Bool) : Session :=
  { s with env := s.env.set x value }.noted (.assigned n x value)

/-- A maze is loaded on line `n`. -/
def loaded (s : Session) (n : Int) (k : PresetNumber) (m : Maze) : Session :=
  { s with maze := some m }.noted (.loaded n k m)

end Session

/-- Whether an action opens the way out. -/
def Maze.opensBy (m : Maze) (a : Action) : Bool :=
  match m.perform a with
  | .ok after => a == .openDoor && after.isSolved
  | .error _ => false

namespace Exec

theorem act_of_none {s : Session} (h : s.maze = none) (kind : Kind) :
    act kind s = .error (.failed ⟨.noMaze kind, s.line, 0⟩) s := by
  rw [act, bind_get, h]
  rfl

theorem act_of_some {s : Session} {m : Maze} (h : s.maze = some m) (a : Action) :
    act (.action a) s = .ok (m.opensBy a) (s.attempted m a) := by
  rw [act, bind_get, h]
  dsimp only [Maze.opensBy, Session.attempted]
  cases m.perform a with
  | ok after => rfl
  | error reason => rfl

/-- The value of an expression on line `n`, and the session in which it is told. -/
theorem condition_apply (r : Reader) (n : Int) (tokens : List Token) (s : Session) :
    condition r n tokens s = match r.expr n tokens s with
      | .ok e t =>
        match e.eval { t.toScene with line := n } with
        | .ok value => .ok value { t with line := n }
        | .error err => .error (.failed err) { t with line := n }
      | .error e t => .error e t := by
  rw [condition]
  cases h : r.expr n tokens s with
  | ok e t =>
    rw [bind_of_ok h, bind_modify, bind_get]
    dsimp only
    cases e.eval { t.toScene with line := n } with
    | ok value => rfl
    | error err => rfl
  | error e t => rw [bind_of_error h]

theorem load_of_ne {c : Config} {n : Int} {head : Token} {args : List Token}
    (h : head.kind ≠ .load) : load c n head args = Step.fail .loadNotFirst n head.column := by
  unfold load
  split <;> first | contradiction | rfl

/-- A fault that hides the last line does not show. -/
theorem isLast_apply (r : Reader) (n : Int) (s : Session) :
    isLast r n s = match r.last s with
      | .ok last s' => .ok (n == last) s'
      | .error _ s' => .ok false s' := by
  unfold isLast
  show EStateM.bind (EStateM.tryCatch (EStateM.bind r.last _) _) _ s = _
  simp only [EStateM.bind, EStateM.tryCatch]
  cases r.last s with
  | ok last s' => rfl
  | error e s' => rfl

/-! ## Corresponding operations -/

/-- The single operations of two runs correspond: a run of the program `p`, consulted by `r`, and a
run of the program `p'`, consulted by `r'`. -/
structure Parallel (A : Accord) (p p' : Program) (r r' : Reader) (c c' : Config) : Prop where
  loader : ∀ {s t}, A.sessions s t → s.executed = 0 → c'.loader = c.loader
  -- what stands on corresponding lines
  spot : ∀ {n n'}, A.lines n n' → A.spots n n'
  spot_succ : ∀ {n n'}, A.lines n n' → A.spots (n + 1) (n' + 1)
  column_zero : A.columns 0 0
  words : ∀ {n n' ts ts'}, A.lines n n' → p.tokens n = .ok ts → p'.tokens n' = .ok ts' →
    List.Forall₂ (Token.Alike A.texts A.columns) ts ts'
  blocks : ∀ {n n' b b'}, A.lines n n' → p.block n = .ok b → p'.block n' = .ok b' →
    b.Alike A.lines b'
  -- what is looked up
  tokens : ∀ {n n'}, A.lines n n' →
    Related A (fun ts ts' => p.tokens n = .ok ts ∧ p'.tokens n' = .ok ts') (r.tokens n)
      (r'.tokens n')
  isLast : ∀ {n n' s t}, A.lines n n' → A.sessions s t →
    ∃ b s' t', isLast r n s = .ok b s' ∧ isLast r' n' t = .ok b t' ∧ A.sessions s' t' ∧
      s'.line = s.line ∧ t'.line = t.line
  block : ∀ {n n' head args}, A.lines n n' → p.tokens n = .ok (head :: args) →
    Related A (fun b b' => p.block n = .ok b ∧ p'.block n' = .ok b') (r.block n) (r'.block n')
  expr : ∀ {n n' ts ts'}, A.lines n n' → p.tokens n = .ok ts → p'.tokens n' = .ok ts' →
    Related A (Expr.Alike A.texts) (r.expr n (Token.exprPart ts)) (r'.expr n' (Token.exprPart ts'))
  -- what sessions show, and how they change
  started : ∀ {s t}, A.sessions s t → (t.executed = 0 ↔ s.executed = 0)
  scene : ∀ {s t}, A.sessions s t → s.toScene.Alike A.texts t.toScene
  settle : ∀ {s t n n'}, A.sessions s t → A.lines n n' →
    A.sessions { s with line := n } { t with line := n' }
  enter : ∀ {s t n n' ts ts'}, A.sessions s t → A.lines n n' → p.tokens n = .ok ts →
    p'.tokens n' = .ok ts' →
    A.sessions (s.entered n (Token.line ts)) (t.entered n' (Token.line ts'))
  load : ∀ {s t n n' ts ts' k m}, A.sessions s t → s.executed = 0 → A.lines n n' →
    p.tokens n = .ok ts → p'.tokens n' = .ok ts' → c.loader k = .ok m →
    A.sessions ((s.entered n (Token.line ts)).loaded n k m)
      ((t.entered n' (Token.line ts')).loaded n' k m)
  attempt : ∀ {s t m} (a : Action), A.sessions s t → A.lines s.line t.line → s.maze = some m →
    A.sessions (s.attempted m a) (t.attempted m a)
  solve : ∀ {s t n n'}, A.sessions s t → A.lines n n' →
    A.sessions (s.noted (.solved n)) (t.noted (.solved n'))
  assign : ∀ {s t n n' head args} (value : Bool), A.sessions s t → A.lines n n' →
    p.tokens n = .ok (head :: args) → head.kind = .ident →
    A.sessions (s.assigned n head.literal value) (t.assigned n' (A.texts head.literal) value)
  -- why the runs stop
  fails : ∀ {s t n n' k k'} {fault : Fault}, fault.Uncapped → A.sessions s t → A.lines n n' →
    A.columns k k' →
    A.stops (.failed ⟨fault, n, k⟩) s (.failed ⟨fault.reword A.texts, n', k'⟩) t
  panics : ∀ {s t k}, A.sessions s t → c.loader k = .error .tooLarge →
    A.stops .outOfRange s .outOfRange t

/-- What to do after the lines `n` and `n'`: the same, or jumps further down. -/
def Onward (A : Accord) (n n' : Int) : Flow → Flow → Prop
  | .next, .next => True
  | .halt, .halt => True
  | .jump a, .jump a' => A.spots a a' ∧ n < a ∧ n' < a'
  | _, _ => False

/-- The lines behind `n` and `n'` are executed in corresponding ways. -/
def Below (A : Accord) (n n' : Int) (sub sub' : Int → Int → Step Flow) : Prop :=
  ∀ {a a' b b'}, A.spots a a' → A.spots b b' → n < a → n' < a' →
    Related A Eq (sub a b) (sub' a' b')

/-- Ranges correspond if their first lines do and the lines behind. -/
theorem related_rangeIn_succ {A : Accord} {r r' : Reader} {c c' : Config}
    {limit limit' steps steps' : Nat} {n n' stop stop' : Int} (hlt : n < stop) (hlt' : n' < stop')
    (hnext : A.spots (n + 1) (n' + 1)) (hstop : A.spots stop stop')
    (hbelow : Below A n n' (rangeIn r c limit steps) (rangeIn r' c' limit' steps'))
    (hline : Related A (Onward A n n') (line r c (rangeIn r c limit steps) limit n)
      (line r' c' (rangeIn r' c' limit' steps') limit' n')) :
    Related A Eq (rangeIn r c limit (steps + 1) n stop)
      (rangeIn r' c' limit' (steps' + 1) n' stop') := by
  rw [rangeIn, rangeIn, if_pos hlt, if_pos hlt']
  refine hline.bind ?_
  rintro flow flow' hflow
  cases flow with
  | halt =>
    cases flow' with
    | halt => exact related_pure rfl
    | _ => exact hflow.elim
  | next =>
    cases flow' with
    | next => exact hbelow hnext hstop (by omega) (by omega)
    | _ => exact hflow.elim
  | jump a =>
    cases flow' with
    | jump a' =>
      obtain ⟨hspot, hlow, hlow'⟩ := hflow
      exact hbelow hspot hstop hlow hlow'
    | _ => exact hflow.elim

/-! ## Rounds of loops -/

/-- Whether a loop that has made `i` iterations may make no more. -/
abbrev Spent (cap : Int) (i : Nat) : Prop := 0 < cap ∧ cap ≤ i

/-- The loop on line `n` has made too many iterations. -/
def exceeded (cap n : Int) : Stop := .failed ⟨.loopExceeded cap, n, 0⟩

/-- What two loops, the first one with a cap, are granted before their round `i`. -/
inductive Granted (A : Accord) (cap : Int) : (granted granted' i : Nat) → Prop where
  /-- The first loop may run out of rounds. -/
  | excused {granted granted' i : Nat} (hexcused : A.excused .unfinished)
      (hle : granted ≤ granted') : Granted A cap granted granted' i
  /-- Both loops run out of rounds together. -/
  | equal {granted i : Nat} (hstops : ∀ s t, A.sessions s t → A.stops .unfinished s .unfinished t) :
      Granted A cap granted granted i
  /-- There are more rounds than the cap allows iterations. -/
  | ample {granted i : Nat} (hpos : 0 < cap) (hle : i ≤ cap) (hlt : cap < i + granted) :
      Granted A cap granted granted i

theorem Granted.next {A : Accord} {cap : Int} {granted granted' i : Nat}
    (h : Granted A cap (granted + 1) (granted' + 1) i) (hi : ¬ Spent cap i) :
    Granted A cap granted granted' (i + 1) := by
  cases h with
  | excused hexcused hle => exact .excused hexcused (by omega)
  | equal hstops => exact .equal hstops
  | ample hpos hle hlt =>
    have hmore : i < cap := Int.not_le.1 fun hle => hi ⟨hpos, hle⟩
    exact .ample hpos (by omega) (by omega)

/-- Loops correspond if their parts do, as long as the second loop is not the first to be
stopped. -/
theorem related_rounds {A : Accord} {test test' : Step Bool} {body body' : Step Flow}
    {exit exit' : Flow} {cap cap' n n' : Int} {values : Flow → Flow → Prop}
    (htest : Related A Eq test test') (hbody : Related A Eq body body')
    (hexit : values exit exit') (hhalt : values .halt .halt) {granted granted' i : Nat}
    (hgranted : Granted A cap granted granted' i)
    (hcap : ∀ j < i + granted, Spent cap' j → Spent cap j)
    (hspent : ∀ j, Spent cap j → A.excused (exceeded cap n) ∨
      Spent cap' j ∧ ∀ s t, A.sessions s t → A.stops (exceeded cap n) s (exceeded cap' n') t) :
    Related A values (rounds test body exit cap n granted i)
      (rounds test' body' exit' cap' n' granted' i) := by
  induction granted generalizing granted' i with
  | zero =>
    intro s t hst
    cases hgranted with
    | excused hexcused _ => exact matches_of_excused rfl hexcused _
    | equal hstops => exact .inr (hstops s t hst)
    | ample _ hle hlt => omega
  | succ granted ih =>
    obtain ⟨k, rfl⟩ : ∃ k, granted' = k + 1 := by
      cases hgranted with
      | excused _ hle => exact ⟨granted' - 1, by omega⟩
      | _ => exact ⟨granted, rfl⟩
    refine htest.bind ?_
    rintro value _ rfl
    cases value with
    | false => exact related_pure hexit
    | true =>
      simp only [if_true]
      by_cases hi : Spent cap i
      · rw [if_pos hi]
        intro s t hst
        rcases hspent i hi with hexcused | ⟨hi', hstops⟩
        · exact matches_of_excused rfl hexcused _
        · rw [if_pos hi']
          exact .inr (hstops s t hst)
      · rw [if_neg hi, if_neg (mt (hcap i (by omega)) hi)]
        have hrest : Related A values (rounds test body exit cap n granted (i + 1))
            (rounds test' body' exit' cap' n' k (i + 1)) :=
          ih (hgranted.next hi) (fun j hj => hcap j (by omega))
        refine hbody.bind ?_
        rintro flow _ rfl
        cases flow with
        | halt => exact related_pure hhalt
        | next => exact hrest
        | jump line => exact hrest

namespace Parallel

variable {A : Accord} {p p' : Program} {r r' : Reader} {c c' : Config} {n n' : Int}
  {head head' : Token} {args args' : List Token} {sub sub' : Int → Int → Step Flow}

theorem failing (h : Parallel A p p' r r' c c') (hn : A.lines n n') {k k' : Int}
    (hk : A.columns k k') {fault : Fault} (hfault : fault.Uncapped) {α β : Type}
    {values : α → β → Prop} :
    Related A values (Step.fail fault n k) (Step.fail (fault.reword A.texts) n' k') :=
  related_fail fun _ _ hst => h.fails hfault hst hn hk

theorem related_condition (h : Parallel A p p' r r' c c') (hn : A.lines n n') {ts ts' : List Token}
    (hts : p.tokens n = .ok ts) (hts' : p'.tokens n' = .ok ts') :
    Related A Eq (condition r n (Token.exprPart ts)) (condition r' n' (Token.exprPart ts')) := by
  intro s t hst
  have hexpr := h.expr hn hts hts' s t hst
  rw [condition_apply, condition_apply]
  revert hexpr
  cases r.expr n (Token.exprPart ts) s with
  | error e s' =>
    cases r'.expr n' (Token.exprPart ts') t with
    | error e' t' => exact id
    | ok e' t' => exact fun hexpr => matches_of_excused rfl hexpr _
  | ok e s' =>
    cases r'.expr n' (Token.exprPart ts') t with
    | error e' t' => exact False.elim
    | ok e' t' =>
      rintro ⟨he, hst'⟩
      have hscene : Scene.Alike A.texts { s'.toScene with line := n }
          { t'.toScene with line := n' } := ⟨(h.scene hst').env, (h.scene hst').maze⟩
      have hvalue := hscene.eval he
      have hset := h.settle hst' hn
      revert hvalue
      dsimp only
      cases e.eval { s'.toScene with line := n } with
      | ok v =>
        cases e'.eval { t'.toScene with line := n' } with
        | ok v' =>
          rintro rfl
          exact ⟨rfl, hset⟩
        | error err' => exact False.elim
      | error err =>
        cases e'.eval { t'.toScene with line := n' } with
        | ok v' => exact False.elim
        | error err' =>
          rintro ⟨fault, hfault, rfl, rfl⟩
          exact .inr (h.fails hfault hset hn h.column_zero)

theorem related_load (h : Parallel A p p' r r' c c') (hn : A.lines n n')
    (hts : p.tokens n = .ok (head :: args)) (hts' : p'.tokens n' = .ok (head' :: args'))
    {s t : Session} (hst : A.sessions s t) (hs : s.executed = 0) :
    Matches A (Onward A n n')
      (Exec.load c n head args (s.entered n (Token.line (head :: args))))
      (Exec.load c' n' head' args' (t.entered n' (Token.line (head' :: args')))) := by
  have henter := h.enter hst hn hts hts'
  have hzero := h.column_zero
  obtain ⟨hhead, hargs⟩ := List.forall₂_cons.1 (h.words hn hts hts')
  by_cases hload : head.kind = .load
  · unfold Exec.load
    rw [hhead.kind, h.loader hst hs, hload]
    cases hargs with
    | nil => exact h.failing hn hzero (by nofun) _ _ henter
    | cons hid hmore =>
      rename_i id id' more more'
      cases hmore with
      | cons hextra _ => exact h.failing hn hextra.column (by nofun) _ _ henter
      | nil =>
        dsimp only
        rw [hid.kind, hid.literal]
        cases id.kind with
        | preset k =>
          dsimp only
          cases hk : c.loader k with
          | ok m => exact ⟨trivial, h.load hst hs hn hts hts' hk⟩
          | error e =>
            cases e with
            | tooLarge => exact .inr (h.panics henter hk)
            | _ => exact h.failing hn hzero (by nofun) _ _ henter
        | _ => exact h.failing hn hid.column (by nofun) _ _ henter
  · rw [load_of_ne hload, load_of_ne (by rw [hhead.kind]; exact hload)]
    exact h.failing hn hhead.column (by nofun) _ _ henter

theorem related_assign (h : Parallel A p p' r r' c c') (hn : A.lines n n')
    (hts : p.tokens n = .ok (head :: args)) (hts' : p'.tokens n' = .ok (head' :: args'))
    (hkind : head.kind = .ident) :
    Related A (Onward A n n') (Exec.assign r n (head :: args))
      (Exec.assign r' n' (head' :: args')) := by
  have hcondition := h.related_condition hn hts hts'
  obtain ⟨hhead, hargs⟩ := List.forall₂_cons.1 (h.words hn hts hts')
  have hbad : Related A (Onward A n n')
      (Step.fail .malformedAssignment n head.column : Step Flow)
      (Step.fail .malformedAssignment n' head'.column) := h.failing hn hhead.column (by nofun)
  cases hargs with
  | nil => exact hbad
  | cons hop hmore =>
    cases hmore with
    | nil => exact hbad
    | cons hfirst hmore =>
      -- the expression is what stands after the name and the operator
      rw [Token.exprPart, if_pos hkind, Token.exprPart, if_pos (by rw [hhead.kind]; exact hkind)]
        at hcondition
      simp only [Exec.assign, hop.kind]
      split
      · refine hcondition.bind ?_
        rintro value _ rfl s t hst
        refine ⟨trivial, ?_⟩
        rw [hhead.literal]
        exact h.assign value hst hn hts hkind
      · exact hbad

/-- The lines that a branch picks correspond and lie below it. -/
theorem chosen (h : Parallel A p p' r r' c c') (hn : A.lines n n') {b b' : Block}
    (hb : p.block n = .ok b) (hb' : p'.block n' = .ok b') (value : Bool) :
    A.spots (b.chosen value).1 (b'.chosen value).1 ∧
      A.spots (b.chosen value).2 (b'.chosen value).2 ∧
      n < (b.chosen value).1 ∧ n' < (b'.chosen value).1 := by
  obtain ⟨hother, hclose⟩ := h.blocks hn hb hb'
  have hlow := (Program.closed_chosen hb value).1
  have hlow' := (Program.closed_chosen hb' value).1
  have hstart := h.spot_succ hn
  have hstop := h.spot hclose
  unfold Block.chosen at hlow hlow' ⊢
  rw [(Program.block_order hb).1] at hlow ⊢
  rw [(Program.block_order hb').1] at hlow' ⊢
  generalize b.otherwise = o at hother hlow ⊢
  generalize b'.otherwise = o' at hother hlow' ⊢
  cases hother with
  | none =>
    cases value with
    | true => exact ⟨hstart, hstop, hlow, hlow'⟩
    | false => exact ⟨hstop, hstop, hlow, hlow'⟩
  | some ho =>
    cases value with
    | true => exact ⟨hstart, h.spot ho, hlow, hlow'⟩
    | false => exact ⟨h.spot_succ ho, hstop, hlow, hlow'⟩

/-- Behind a block the runs go on in corresponding places. -/
theorem behind (h : Parallel A p p' r r' c c') (hn : A.lines n n') {b b' : Block}
    (hb : p.block n = .ok b) (hb' : p'.block n' = .ok b') :
    Onward A n n' (.jump (b.close + 1)) (.jump (b'.close + 1)) := by
  have hlt := (Program.block_order hb).2.1
  have hlt' := (Program.block_order hb').2.1
  exact ⟨h.spot_succ (h.blocks hn hb hb').close, by omega, by omega⟩

/-- The tokens of a branch or a loop behind the first are its expression. -/
theorem related_test (h : Parallel A p p' r r' c c') (hn : A.lines n n')
    (hts : p.tokens n = .ok (head :: args)) (hts' : p'.tokens n' = .ok (head' :: args'))
    (hkind : head.kind ≠ .ident) :
    Related A Eq (condition r n args) (condition r' n' args') := by
  have hcondition := h.related_condition hn hts hts'
  obtain ⟨hhead, -⟩ := List.forall₂_cons.1 (h.words hn hts hts')
  rw [Token.exprPart, if_neg hkind, Token.exprPart, if_neg (by rw [hhead.kind]; exact hkind)]
    at hcondition
  exact hcondition

theorem related_branch (h : Parallel A p p' r r' c c') (hn : A.lines n n')
    (hts : p.tokens n = .ok (head :: args)) (hts' : p'.tokens n' = .ok (head' :: args'))
    (hkind : head.kind ≠ .ident) (hsub : Below A n n' sub sub') :
    Related A (Onward A n n') (branch r sub n args) (branch r' sub' n' args') := by
  refine (h.block hn hts).bind ?_
  rintro b b' ⟨hb, hb'⟩
  refine (h.related_test hn hts hts' hkind).bind ?_
  rintro value _ rfl
  obtain ⟨hstart, hstop, hlt, hlt'⟩ := h.chosen hn hb hb' value
  refine (hsub hstart hstop hlt hlt').bind ?_
  rintro flow _ rfl
  cases flow with
  | halt => exact related_pure trivial
  | next => exact related_pure (h.behind hn hb hb')
  | jump line => exact related_pure (h.behind hn hb hb')

/-- Loops correspond if their rounds do. -/
theorem related_loop (h : Parallel A p p' r r' c c') (hn : A.lines n n')
    (hts : p.tokens n = .ok (head :: args)) (hsub : Below A n n' sub sub') {limit limit' : Nat}
    (hrounds : ∀ {b b'}, p.block n = .ok b → p'.block n' = .ok b' →
      Related A Eq (sub (n + 1) b.close) (sub' (n' + 1) b'.close) →
      Onward A n n' (.jump (b.close + 1)) (.jump (b'.close + 1)) →
      Related A (Onward A n n')
        (rounds (condition r n args) (sub (n + 1) b.close) (.jump (b.close + 1)) c.cap n limit 0)
        (rounds (condition r' n' args') (sub' (n' + 1) b'.close) (.jump (b'.close + 1)) c'.cap n'
          limit' 0)) :
    Related A (Onward A n n') (loop r c sub limit n args) (loop r' c' sub' limit' n' args') := by
  refine (h.block hn hts).bind ?_
  rintro b b' ⟨hb, hb'⟩
  have hclose := h.spot (h.blocks hn hb hb').close
  exact hrounds hb hb' (hsub (h.spot_succ hn) hclose (by omega) (by omega)) (h.behind hn hb hb')

theorem related_statement (h : Parallel A p p' r r' c c') (hn : A.lines n n')
    (hts : p.tokens n = .ok (head :: args)) (hts' : p'.tokens n' = .ok (head' :: args'))
    (hsub : Below A n n' sub sub') {limit limit' : Nat}
    (hloop : head.kind = .loop → Related A (Onward A n n') (loop r c sub limit n args)
      (loop r' c' sub' limit' n' args'))
    {s t : Session} (hst : A.sessions s t) (hs : s.line = n) (ht : t.line = n') :
    Matches A (Onward A n n') (statement r c sub limit n head args s)
      (statement r' c' sub' limit' n' head' args' t) := by
  obtain ⟨hhead, hargs⟩ := List.forall₂_cons.1 (h.words hn hts hts')
  unfold statement
  rw [hhead.kind, hhead.literal]
  cases hk : head.kind with
  | action a =>
    cases hargs with
    | cons hextra _ => exact h.failing hn hextra.column (by nofun) _ _ hst
    | nil =>
      have hmaze := (h.scene hst).maze
      dsimp only
      cases hm : s.maze with
      | none =>
        have hleft := act_of_none hm (.action a)
        have hright := act_of_none (hmaze.trans hm) (.action a)
        rw [bind_of_error hleft, bind_of_error hright, hs, ht]
        exact .inr (h.fails (by nofun) hst hn h.column_zero)
      | some m =>
        have hleft := act_of_some hm a
        have hright := act_of_some (hmaze.trans hm) a
        have hattempt := h.attempt a hst (by rw [hs, ht]; exact hn) hm
        rw [bind_of_ok hleft, bind_of_ok hright]
        cases m.opensBy a with
        | true => exact ⟨trivial, h.solve hattempt hn⟩
        | false => exact ⟨trivial, hattempt⟩
  | branch => exact h.related_branch hn hts hts' (by rw [hk]; decide) hsub _ _ hst
  | loop => exact hloop hk _ _ hst
  | ident => exact h.related_assign hn hts hts' hk _ _ hst
  | _ => exact h.failing hn hhead.column (by nofun) _ _ hst

/-- **Corresponding lines are executed in corresponding ways**, if the loops among them are. -/
theorem related_line (h : Parallel A p p' r r' c c') (hn : A.lines n n')
    (hsub : Below A n n' sub sub') {limit limit' : Nat}
    (hloop : ∀ {head args head' args'}, p.tokens n = .ok (head :: args) →
      p'.tokens n' = .ok (head' :: args') → head.kind = .loop →
      Related A (Onward A n n') (loop r c sub limit n args) (loop r' c' sub' limit' n' args')) :
    Related A (Onward A n n') (line r c sub limit n) (line r' c' sub' limit' n') := by
  refine (h.tokens hn).bind ?_
  rintro ts ts' ⟨hts, hts'⟩
  have hwords := h.words hn hts hts'
  cases hwords with
  | nil => exact related_pure trivial
  | cons hhead hargs =>
    rename_i head head' args args'
    intro s t hst
    -- the line is counted before it is asked whether it is the first
    show Matches A (Onward A n n')
      ((if s.executed + 1 = 1 then _ else _ : Step Flow) (s.entered n (Token.line (head :: args))))
      ((if t.executed + 1 = 1 then _ else _ : Step Flow)
        (t.entered n' (Token.line (head' :: args'))))
    by_cases hs : s.executed = 0
    · rw [if_pos (by omega), if_pos (by have := (h.started hst).2 hs; omega)]
      exact h.related_load hn hts hts' hst hs
    · rw [if_neg (by omega), if_neg (by have := mt (h.started hst).1 hs; omega)]
      obtain ⟨b, s', t', hb, hb', hst', hs', ht'⟩ :=
        h.isLast hn (h.enter hst hn hts hts')
      rw [bind_of_ok hb, bind_of_ok hb']
      cases b with
      | true => exact ⟨trivial, hst'⟩
      | false => exact h.related_statement hn hts hts' hsub (hloop hts hts') hst' hs' ht'

end Parallel

end Exec

end RobotMaze

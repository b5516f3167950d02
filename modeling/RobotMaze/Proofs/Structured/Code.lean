import RobotMaze.Run
import RobotMaze.Proofs.Maze.Attempt
import RobotMaze.Proofs.Program.Words

/-!
# Structured programs

A structured program is a tree: a block is a row of statements, and a branch or a loop has blocks
inside.  Its meaning is told by recursion on the tree, with no jumps and no search for the end of a
block.

* `Code` — blocks of statements, and `Code.lines` how they are written, one statement a line;
* `collector` and `corridor` — a program that leaves a maze with two keys;
* `Code.Runs` — what a block does in a world;
* `Code.Ends` — how a whole program ends that has loaded a maze;
* `Code.ends_unique` — it ends in at most one way.
-/

namespace RobotMaze.Structured

/-! ## Syntax -/

/-- A word that can be the name of a variable. -/
structure Name where
  word : Text
  nonempty : word ≠ []
  isIdent : Line.kindOf word = .ident

/-- A valid expression in words. -/
structure Phrase where
  words : List Text
  expr : Expr
  isWord : ∀ w ∈ words, Line.IsWord w
  valid : Expr.ofText (Text.join [Text.space] words) = .ok expr

/-- A block of statements: the first one, with the blocks inside it, and the rest. -/
inductive Code where
  | done
  | act (a : Action) (rest : Code)
  | assign (x : Name) (e : Phrase) (rest : Code)
  /-- `IF` without `OTHERWISE`. -/
  | branch (e : Phrase) (yes rest : Code)
  /-- `IF` with `OTHERWISE`. -/
  | choice (e : Phrase) (yes no rest : Code)
  /-- `WHILE`. -/
  | loop (e : Phrase) (body rest : Code)

/-- The words of an action. -/
def Action.words (a : Action) : List Text := [(Kind.action a).text]

/-- The words of an assignment. -/
def Phrase.assigned (e : Phrase) (x : Name) : List Text := x.word :: Kind.assign.text :: e.words

/-- The words of a line that opens a block. -/
def Phrase.opening (e : Phrase) (opener : Kind) : List Text := opener.text :: e.words

/-- The lines of a block, each as its words. -/
def Code.lines : Code → List (List Text)
  | .done => []
  | .act a rest => Action.words a :: rest.lines
  | .assign x e rest => e.assigned x :: rest.lines
  | .branch e yes rest => e.opening .branch :: (yes.lines ++ [Kind.close.text] :: rest.lines)
  | .choice e yes no rest =>
    e.opening .branch ::
      (yes.lines ++ [Kind.otherwise.text] :: (no.lines ++ [Kind.close.text] :: rest.lines))
  | .loop e body rest => e.opening .loop :: (body.lines ++ [Kind.close.text] :: rest.lines)

/-- The number of lines of a block. -/
def Code.height (code : Code) : Nat := code.lines.length

/-- The lines of a program that loads a maze, runs a block and ends. -/
def Code.program (code : Code) (k : PresetNumber) : List (List Text) :=
  [Kind.load.text, (Kind.preset k).text] :: (code.lines ++ [[Kind.close.text]])

/-- The source of a program. -/
def Code.source (code : Code) (k : PresetNumber) : Text :=
  Text.join [Text.lineFeed] ((code.program k).map (Text.join [Text.space]))

/-! ## A program, and a maze for it -/

/-- The sensor that a branch or a loop asks. -/
def Phrase.sensing (s : Sensor) : Phrase where
  words := [(Kind.sensor s).text]
  expr := ⟨⟨.sensor (Kind.sensor s).text, 0⟩, []⟩
  isWord := by
    intro w hw
    rw [List.mem_singleton.1 hw]
    exact Line.isWord_text (by cases s <;> decide)
  valid := by cases s <;> decide +kernel

/-- Goes forward as long as it can, picks what it finds and leaves by the exit. -/
def collector : Code :=
  .loop (.sensing .frontIsClear)
    (.act .moveForward
      (.choice (.sensing .atExit) (.act .openDoor .done) (.act .pickKey .done) .done)) .done

/-- The corridor of `Maze.twoKeys`, for loops of at most four iterations. -/
def corridor : Config where
  loader _ := .ok (.ofDrawing Maze.twoKeys ⟨1, 1⟩ ⟨3, 1⟩ ⟨5, 1⟩ ⟨4, 1⟩ .east)
  cap := 4

/-! ## Worlds -/

/-- What a structured program acts on. -/
structure World where
  maze : Maze
  env : Env := {}
  warnings : Array Rejected := #[]
  /-- How many lines were executed after the first. -/
  entered : Nat := 0
  journal : Array Entry := #[]

/-- What comes of a block. -/
inductive Verdict where
  /-- The next statement is executed. -/
  | goesOn (w : World)
  /-- The whole program ends. -/
  | halts (w : World)
  | fails (e : Error) (w : World)

namespace World

/-- The world with an entry in its journal. -/
def note (w : World) (e : Entry) : World := { w with journal := w.journal.push e }

/-- A statement is entered: it counts and is written down. -/
def enter (w : World) (n : Int) (words : List Text) : World :=
  { w with entered := w.entered + 1 }.note (.line n (Text.join [Text.space] words))

/-- The robot acts.  A rejected action is a warning, and a door that opens ends the program. -/
def act (w : World) (n : Int) (a : Action) : Verdict :=
  match w.maze.perform a with
  | .ok m =>
    let after := { w with maze := m }.note (.acted ⟨n, a, none, m⟩)
    if a = .openDoor then .halts (after.note (.solved n)) else .goesOn after
  | .error reason =>
    .goesOn ({ w with warnings := w.warnings.push ⟨a, reason⟩ }.note
      (.acted ⟨n, a, some reason, w.maze⟩))

/-- The value of an expression on a line. -/
def value (w : World) (n : Int) (e : Phrase) : Except Error Bool :=
  e.expr.eval { line := n, env := w.env, maze := some w.maze }

/-- A variable is set. -/
def assign (w : World) (n : Int) (x : Name) (e : Phrase) : Verdict :=
  match w.value n e with
  | .ok value =>
    .goesOn ({ w with env := w.env.set x.word value }.note (.assigned n x.word value))
  | .error err => .fails err w

/-- The world after the first line has loaded a maze. -/
def loaded (k : PresetNumber) (m : Maze) : World where
  maze := m
  journal := #[.line 1 (Text.join [Text.space] [Kind.load.text, (Kind.preset k).text]),
    .loaded 1 k m]

end World

/-! ## Meaning -/

/-- What may come of a piece of program in a world; nothing does if it runs forever. -/
def Behaviour := World → Verdict → Prop

/-- The verdict `v` comes of the verdict `u` if what follows is `next`. -/
def Verdict.Then (u : Verdict) (next : Behaviour) (v : Verdict) : Prop :=
  match u with
  | .goesOn w => next w v
  | _ => v = u

/-- Whether nothing more is executed. -/
def Verdict.stops : Verdict → Bool
  | .goesOn _ => false
  | _ => true

namespace Behaviour

/-- A single verdict. -/
def exactly (f : World → Verdict) : Behaviour := fun w v => v = f w

/-- One piece after another. -/
def andThen (first next : Behaviour) : Behaviour := fun w v => ∃ u, first w u ∧ u.Then next v

/-- The statement on line `n`. -/
def entering (n : Int) (words : List Text) (b : Behaviour) : Behaviour :=
  fun w => b (w.enter n words)

/-- The branch on line `n` picks by the value of its expression. -/
def choose (n : Int) (e : Phrase) (yes no : Behaviour) : Behaviour := fun w v =>
  match w.value n e with
  | .ok true => yes w v
  | .ok false => no w v
  | .error err => v = .fails err w

/-- The loop on line `n` after `i` iterations.  With a positive `cap`, it fails if it wants another
iteration after as many as that. -/
inductive Rounds (cap n : Int) (e : Phrase) (body : Behaviour) : (i : Nat) → Behaviour
  | leaves {i : Nat} {w} : w.value n e = .ok false → Rounds cap n e body i w (.goesOn w)
  | faults {i : Nat} {w err} : w.value n e = .error err → Rounds cap n e body i w (.fails err w)
  | exceeds {i : Nat} {w} : w.value n e = .ok true → 0 < cap ∧ cap ≤ i →
      Rounds cap n e body i w (.fails { fault := .loopExceeded cap, line := n } w)
  | stops {i : Nat} {w v} : w.value n e = .ok true → ¬ (0 < cap ∧ cap ≤ i) → body w v →
      v.stops = true → Rounds cap n e body i w v
  | again {i : Nat} {w w' v} : w.value n e = .ok true → ¬ (0 < cap ∧ cap ≤ i) →
      body w (.goesOn w') → Rounds cap n e body (i + 1) w' v → Rounds cap n e body i w v

end Behaviour

open Behaviour

/-- What a block does that stands on the lines from `n` on. -/
def Code.Runs (cap : Int) : Code → (n : Int) → Behaviour
  | .done, _ => exactly .goesOn
  | .act a rest, n =>
    (entering n (Action.words a) (exactly fun w => w.act n a)).andThen (rest.Runs cap (n + 1))
  | .assign x e rest, n =>
    (entering n (e.assigned x) (exactly fun w => w.assign n x e)).andThen (rest.Runs cap (n + 1))
  -- a block is followed by the line that closes it
  | .branch e yes rest, n =>
    (entering n (e.opening .branch) (choose n e (yes.Runs cap (n + 1)) (exactly .goesOn))).andThen
      (rest.Runs cap (n + 1 + yes.height + 1))
  | .choice e yes no rest, n =>
    (entering n (e.opening .branch)
      (choose n e (yes.Runs cap (n + 1)) (no.Runs cap (n + 1 + yes.height + 1)))).andThen
      (rest.Runs cap (n + 1 + yes.height + 1 + no.height + 1))
  | .loop e body rest, n =>
    (entering n (e.opening .loop) (Rounds cap n e (body.Runs cap (n + 1)) 0)).andThen
      (rest.Runs cap (n + 1 + body.height + 1))

/-- How a program ends that has loaded a maze: its last line, if it is reached, halts it. -/
def Code.Ends (code : Code) (cap : Int) (k : PresetNumber) (m : Maze) : Verdict → Prop :=
  (code.Runs cap 2).andThen
    (entering (2 + code.height) [Kind.close.text] (exactly .halts)) (World.loaded k m)

/-! ## Uniqueness -/

/-- At most one verdict comes of a piece of program in a world. -/
def Behaviour.Deterministic (b : Behaviour) : Prop := ∀ w u v, b w u → b w v → u = v

namespace Behaviour

theorem deterministic_exactly (f : World → Verdict) : (exactly f).Deterministic := by
  rintro w u v rfl rfl
  rfl

theorem Deterministic.andThen {b c : Behaviour} (hb : b.Deterministic) (hc : c.Deterministic) :
    (b.andThen c).Deterministic := by
  rintro w u v ⟨u', hu', hu⟩ ⟨v', hv', hv⟩
  cases hb w u' v' hu' hv'
  cases u' with
  | goesOn w' => exact hc w' u v hu hv
  | halts w' => exact hu.trans hv.symm
  | fails e w' => exact hu.trans hv.symm

theorem Deterministic.entering {b : Behaviour} (hb : b.Deterministic) (n : Int)
    (words : List Text) : (entering n words b).Deterministic :=
  fun w => hb (w.enter n words)

theorem Deterministic.choose {yes no : Behaviour} (hyes : yes.Deterministic)
    (hno : no.Deterministic) (n : Int) (e : Phrase) : (choose n e yes no).Deterministic := by
  intro w u v
  unfold Behaviour.choose
  cases w.value n e with
  | ok value =>
    cases value with
    | true => exact hyes w u v
    | false => exact hno w u v
  | error err =>
    rintro rfl rfl
    rfl

theorem Deterministic.rounds {body : Behaviour} (hbody : body.Deterministic) (cap n : Int)
    (e : Phrase) (i : Nat) : (Rounds cap n e body i).Deterministic := by
  intro w u v hu
  -- along the first run; the second has to take the same rule in each round
  induction hu with
  | leaves h => intro hv; cases hv <;> simp_all
  | faults h => intro hv; cases hv <;> simp_all
  | exceeds h hcap => intro hv; cases hv <;> simp_all
  | @stops i w u h hcap hu hstop =>
    intro hv
    cases hv with
    | stops _ _ hv _ => exact hbody w _ _ hu hv
    | again _ _ hv _ =>
      rw [hbody w _ _ hu hv] at hstop
      cases hstop
    | _ => simp_all
  | @again i w w' u h hcap hu _ ih =>
    intro hv
    cases hv with
    | stops _ _ hv hstop =>
      rw [← hbody w _ _ hu hv] at hstop
      cases hstop
    | again _ _ hv hrest =>
      cases hbody w _ _ hu hv
      exact ih hrest
    | _ => simp_all

end Behaviour

theorem Code.runs_deterministic (cap : Int) (code : Code) (n : Int) :
    (code.Runs cap n).Deterministic := by
  induction code generalizing n with
  | done => exact deterministic_exactly _
  | act a rest ih => exact ((deterministic_exactly _).entering _ _).andThen (ih _)
  | assign x e rest ih => exact ((deterministic_exactly _).entering _ _).andThen (ih _)
  | branch e yes rest ihYes ih =>
    exact (((ihYes _).choose (deterministic_exactly _) _ _).entering _ _).andThen (ih _)
  | choice e yes no rest ihYes ihNo ih =>
    exact (((ihYes _).choose (ihNo _) _ _).entering _ _).andThen (ih _)
  | loop e body rest ihBody ih => exact (((ihBody _).rounds _ _ _ _).entering _ _).andThen (ih _)

/-- **A structured program ends in at most one way.** -/
theorem Code.ends_unique {code : Code} {cap : Int} {k : PresetNumber} {m : Maze} {u v : Verdict}
    (hu : code.Ends cap k m u) (hv : code.Ends cap k m v) : u = v :=
  ((code.runs_deterministic cap 2).andThen ((deterministic_exactly _).entering _ _)) _ u v hu hv

end RobotMaze.Structured

import RobotMaze.Run.Reader

/-!
# Executing lines

A statement is executed on its line and tells what to do next.  A branch or a loop executes ranges
of lines between its own line and the end of its block, and then jumps behind the block.

Ranges move down the program, so `Exec.range` can always count on `size + 2` steps.  The rounds of a
loop have no such bound: each entry of a loop is granted `limit` rounds, and a run that needs more
stops as unfinished.
-/

namespace RobotMaze.Exec

/-! ## The world -/

/-- What a sensor of the robot shows. -/
def sense (kind : Kind) : Step Bool := do
  match (← get).toScene.sense kind with
  | .ok value => return value
  | .error e => throw (.failed e)

/-- Carries out an action and tells whether it has opened the way out.  A rejected action is a
warning. -/
def act (kind : Kind) : Step Bool := do
  let s ← get
  match s.maze, kind with
  | none, _ => Step.fail (.noMaze kind) s.line 0
  | some m, .action a =>
    match m.perform a with
    | .ok after =>
      set { s with maze := some after }
      Step.note (.acted { line := s.line, action := a, rejection := none, maze := after })
      return a == .openDoor && after.isSolved
    | .error reason =>
      Step.note (.acted { line := s.line, action := a, rejection := some reason, maze := m })
      modify fun s => { s with warnings := s.warnings.push ⟨a, reason⟩ }
      return false
  | some _, _ => Step.fail (.notAction kind) s.line 0

/-! ## Statements -/

/-- The value of the expression that the tokens on line `n` stand for. -/
def condition (r : Reader) (n : Int) (tokens : List Token) : Step Bool := do
  let e ← r.expr n tokens
  modify fun s => { s with line := n }
  match e.eval (← get).toScene with
  | .ok value => return value
  | .error err => throw (.failed err)

/-- The first statement: `LOAD` and a preset number. -/
def load (c : Config) (n : Int) (head : Token) (args : List Token) : Step Flow :=
  match head.kind, args with
  | .load, [] => Step.fail .loadWithoutPreset n 0
  | .load, [id] =>
    match id.kind with
    | .preset number =>
      match c.loader number with
      | .ok m => do
        modify fun s => { s with maze := some m }
        Step.note (.loaded n number m)
        return .next
      | .error .tooLarge => throw .outOfRange
      | .error e => Step.fail (.loadFailed number.word e.message) n 0
    | _ => Step.fail (.invalidPreset id.literal) n id.column
  | .load, _ :: extra :: _ => Step.fail .loadArguments n extra.column
  | _, _ => Step.fail .loadNotFirst n head.column

/-- The assignment on line `n`. -/
def assign (r : Reader) (n : Int) (tokens : List Token) : Step Flow :=
  match tokens with
  | [] => throw .outOfRange
  | target :: rest =>
    match rest with
    | op :: first :: more =>
      if op.kind = .assign then do
        let value ← condition r n (first :: more)
        modify fun s => { s with env := s.env.set target.literal value }
        Step.note (.assigned n target.literal value)
        return .next
      else
        Step.fail .malformedAssignment n target.column
    | _ => Step.fail .malformedAssignment n target.column

/-- The branch on line `n`; `sub` executes ranges of lines. -/
def branch (r : Reader) (sub : Int → Int → Step Flow) (n : Int) (args : List Token) :
    Step Flow := do
  let b ← r.block n
  let value ← condition r n args
  let lines := b.chosen value
  match ← sub lines.1 lines.2 with
  | .halt => return .halt
  | _ => return .jump (b.close + 1)

/-- The rounds of a loop from round `i` on, of which the given number is granted: `test` is the
condition, `body` one iteration, `exit` what to do afterwards. -/
def rounds (test : Step Bool) (body : Step Flow) (exit : Flow) (cap : Int) (n : Int) :
    Nat → (i : Nat) → Step Flow
  | 0, _ => throw .unfinished
  | granted + 1, i => do
    if ← test then
      if 0 < cap ∧ cap ≤ i then
        Step.fail (.loopExceeded cap) n 0
      else
        match ← body with
        | .halt => return .halt
        | _ => rounds test body exit cap n granted (i + 1)
    else
      return exit

/-- The loop on line `n`; `sub` executes ranges of lines. -/
def loop (r : Reader) (c : Config) (sub : Int → Int → Step Flow) (limit : Nat) (n : Int)
    (args : List Token) : Step Flow := do
  let b ← r.block n
  rounds (condition r n args) (sub (n + 1) b.close) (.jump (b.close + 1)) c.cap n limit 0

/-- A statement after the first and before the last line. -/
def statement (r : Reader) (c : Config) (sub : Int → Int → Step Flow) (limit : Nat) (n : Int)
    (head : Token) (args : List Token) : Step Flow :=
  match head.kind with
  | .load => Step.fail .loadRepeated n head.column
  | .action a =>
    match args with
    | [] => do
      if ← act (.action a) then
        Step.note (.solved n)
        return .halt
      else
        return .next
    | extra :: _ => Step.fail (.actionArguments a) n extra.column
  | .branch => branch r sub n args
  | .loop => loop r c sub limit n args
  | .ident => assign r n (head :: args)
  | .close => Step.fail .strayEnd n head.column
  | .otherwise => Step.fail .strayOtherwise n head.column
  | _ => Step.fail (.notStatement head.literal) n head.column

/-- Whether `n` is the last line of the program; no line is if a fault hides the last one. -/
def isLast (r : Reader) (n : Int) : Step Bool := do
  try
    return n == (← r.last)
  catch _ =>
    return false

/-- Executes the line `n`; `sub` executes ranges of lines. -/
def line (r : Reader) (c : Config) (sub : Int → Int → Step Flow) (limit : Nat) (n : Int) :
    Step Flow := do
  match ← r.tokens n with
  | [] => return .next
  | head :: args =>
    modify fun s => { s with line := n, executed := s.executed + 1 }
    Step.note (.line n (Token.line (head :: args)))
    if (← get).executed = 1 then
      load c n head args
    else if ← isLast r n then
      return .halt
    else
      statement r c sub limit n head args

/-! ## Ranges and runs -/

/-- Executes the lines `[start, stop)` in at most the given number of steps. -/
def rangeIn (r : Reader) (c : Config) (limit : Nat) : Nat → (start stop : Int) → Step Flow
  | 0, _, _ => throw .unfinished
  | steps + 1, start, stop =>
    if start < stop then do
      match ← line r c (fun a b => rangeIn r c limit steps a b) limit start with
      | .halt => return .halt
      | .jump next => rangeIn r c limit steps next stop
      | .next => rangeIn r c limit steps (start + 1) stop
    else
      return .next

/-- Executes the lines `[start, stop)`. -/
def range (r : Reader) (c : Config) (limit : Nat) (start stop : Int) : Step Flow :=
  rangeIn r c limit (r.size + 2) start stop

/-- Executes the line `n` with all that belongs to its statement. -/
def single (r : Reader) (c : Config) (limit : Nat) (n : Int) : Step Flow :=
  line r c (range r c limit) limit n

/-- The last line, which has to be a bare `END`. -/
def ending (r : Reader) : Step Int := do
  let last ← r.last
  if last = 0 then
    Step.fail .emptyProgram 1 0
  else
    match ← r.tokens last with
    | [t] => if t.kind = .close then return last else Step.fail .unclosedProgram last 0
    | _ => Step.fail .unclosedProgram last 0

/-- Executes a whole program. -/
def program (r : Reader) (c : Config) (limit : Nat) : Step Flow := do
  let last ← ending r
  range r c limit 1 (last + 1)

end RobotMaze.Exec

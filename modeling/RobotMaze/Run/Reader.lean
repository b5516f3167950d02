import RobotMaze.Expr.Parse
import RobotMaze.Run.Session

/-!
# Consulting the program

A run asks its program for the tokens of lines, for blocks and for expressions.  `Reader.fresh`
works everything out each time; `Reader.kept` remembers what it has worked out once, under the
number of the line.  Its searches for the last line and for the end of a block find the tokens of
lines that way, too.
-/

namespace RobotMaze

/-- How a run consults its program. -/
structure Reader where
  /-- The number of lines. -/
  size : Nat
  tokens : Int → Step (List Token)
  last : Step Int
  block : Int → Step Block
  expr : Int → List Token → Step Expr

namespace Reader

/-- Works everything out each time. -/
def fresh (p : Program) : Reader where
  size := p.size
  tokens n := Step.ofExcept (p.tokens n)
  last := Step.ofExcept p.last
  block n := Step.ofExcept (p.block n)
  expr n ts := Step.ofExcept ((Expr.ofTokens ts n).mapError .failed)

/-- The value that is remembered, or else the computed one, which is then remembered. -/
def remember {α : Type} (find : Memo → Option α) (keep : α → Memo → Memo) (compute : Step α) :
    Step α := do
  match find (← get).memo with
  | some a => return a
  | none =>
    let a ← compute
    modify fun s => { s with memo := keep a s.memo }
    return a

/-- The tokens of a line, which are remembered. -/
def keptTokens (p : Program) (n : Int) : Step (List Token) :=
  remember (fun m => m.tokens.lookup n) (fun a m => { m with tokens := (n, a) :: m.tokens })
    (Step.ofExcept (p.tokens n))

/-- The last line, which is remembered if there is one. -/
def keptLast (p : Program) : Step Int :=
  remember (fun m => m.last) (fun a m => if 0 < a then { m with last := some a } else m)
    (Scan.lastUpTo (keptTokens p) p.size)

/-- The block that a line opens, which is remembered. -/
def keptBlock (p : Program) (n : Int) : Step Block :=
  remember (fun m => m.blocks.lookup n) (fun a m => { m with blocks := (n, a) :: m.blocks })
    (Scan.block (keptTokens p) (keptLast p) n)

/-- Remembers what was worked out once. -/
def kept (p : Program) : Reader where
  size := p.size
  tokens := keptTokens p
  last := keptLast p
  block := keptBlock p
  expr n ts :=
    remember (fun m => m.exprs.lookup n) (fun a m => { m with exprs := (n, a) :: m.exprs })
      (Step.ofExcept ((Expr.ofTokens ts n).mapError .failed))

end Reader

end RobotMaze

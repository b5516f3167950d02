import RobotMaze.Expr
import RobotMaze.Env
import RobotMaze.Fault
import RobotMaze.Maze.Basic

/-!
# The value of an expression

The value of an expression depends on the variables and on what the robot senses.  Terms are
evaluated from left to right and none is left out, so the first term that fails decides the error.
-/

namespace RobotMaze

/-- What the terms of an expression can see. -/
structure Scene where
  /-- The line that errors are reported for. -/
  line : Int := 0
  env : Env := {}
  maze : Option Maze := none
  deriving DecidableEq, Repr

/-- What a sensor shows.  A word that is no sensor is reported even without a maze. -/
def Scene.sense (s : Scene) (kind : Kind) : Except Error Bool :=
  match kind with
  | .sensor sensor =>
    match s.maze with
    | some m => .ok (m.sense sensor)
    | none => .error { fault := .noMaze kind, line := s.line }
  | _ => .error { fault := .notSensor kind, line := s.line }

/-- The value of a term. -/
def Term.eval (s : Scene) : Term → Except Error Bool
  | .literal word => .ok (word == (Kind.truth true).text)
  | .sensor word => s.sense ((Kind.ofWord? word).getD .illegal)
  | .name word =>
    match s.env.get? word with
    | some value => .ok value
    | none => .error { fault := .undeclared word, line := s.line }
  | .blank => .error { fault := .invalidTerm, line := s.line }

namespace Expr

/-- Carries the evaluation over the rest of a chain: `value` tells whether an earlier group of
`AND`s is true, `group` whether the current one is so far. -/
def evalTail (s : Scene) : (value group : Bool) → List (Connective × Operand) → Except Error Bool
  | value, group, [] => .ok (value || group)
  | value, group, (c, o) :: rest => do
    let v ← o.term.eval s
    match c with
    | .or => evalTail s (value || group) v rest
    | .and => evalTail s value (group && v) rest

/-- The value of an expression. -/
def eval (s : Scene) (e : Expr) : Except Error Bool := do
  let v ← e.head.term.eval s
  evalTail s false v e.tail

end Expr

end RobotMaze

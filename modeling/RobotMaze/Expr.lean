import RobotMaze.Text

/-!
# Boolean expressions

An expression is a chain of terms with `AND` or `OR` between neighbours.  There are no parentheses
and no negation; that `AND` binds tighter than `OR` shows in its meaning and not in its shape.
-/

namespace RobotMaze

/-- A term with the word it was written as. -/
inductive Term where
  /-- `TRUE`, or any other word, which counts as false. -/
  | literal (word : Text)
  | sensor (word : Text)
  | name (word : Text)
  /-- A term that says nothing. -/
  | blank
  deriving DecidableEq, Repr

/-- A term with its byte offset in the text of the expression. -/
structure Operand where
  term : Term
  offset : Nat
  deriving DecidableEq, Repr

/-- What stands between two terms. -/
inductive Connective where
  | and
  | or
  deriving DecidableEq, Repr

/-- A chain of terms. -/
structure Expr where
  head : Operand
  tail : List (Connective × Operand)
  deriving DecidableEq, Repr

end RobotMaze

import RobotMaze.Vocabulary

/-!
# Tokens

A token is a word of a source line with its kind and the column it starts at.
-/

namespace RobotMaze

/-- A word of a line. -/
structure Token where
  kind : Kind
  literal : Text
  /-- The column of the first byte, counted from one. -/
  column : Int
  deriving DecidableEq, Repr

namespace Token

/-- The texts of the tokens. -/
def literals (ts : List Token) : List Text := ts.map literal

/-- The texts of the tokens with single spaces between them. -/
def line (ts : List Token) : Text := Text.join [Text.space] (literals ts)

end Token

end RobotMaze

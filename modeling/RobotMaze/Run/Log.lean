import RobotMaze.Text

/-!
# Log lines

Messages have a level.  Warnings and plain messages are always written unless the log is silent,
debug messages only if it is verbose.
-/

namespace RobotMaze

/-- How much is written. -/
inductive Verbosity where
  | silent
  | normal
  | verbose
  deriving DecidableEq, Repr

namespace Log

/-- What a message is about. -/
inductive Level where
  | debug
  | info
  | warning
  deriving DecidableEq, Repr

/-- A message with its level. -/
structure Message where
  level : Level
  text : Text
  deriving DecidableEq, Repr

/-- What stands before the messages of a level. -/
def Level.label : Level → Text
  | .debug => "debug: "
  | .info => ""
  | .warning => "warning: "

/-- Whether messages of a level are written. -/
def Level.isWritten (v : Verbosity) : Level → Bool
  | .debug => v == .verbose
  | .info => v != .silent
  | .warning => v != .silent

/-- A text that ends in a line feed, which is added only if it is missing. -/
def terminated (t : Text) : Text :=
  if t.getLast? = some Text.lineFeed then t else t ++ [Text.lineFeed]

/-- What is written of a message. -/
def Message.render (v : Verbosity) (m : Message) : Text :=
  if m.level.isWritten v then terminated (m.level.label ++ m.text) else []

end Log

end RobotMaze

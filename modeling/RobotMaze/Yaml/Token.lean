import RobotMaze.Text

/-!
# YAML tokens

The tokens that a document is made of.  Brackets, commas and the marks of keys, values and items are
tokens, and so are the beginnings and ends of the blocks that indentation shows.
-/

namespace RobotMaze.Yaml

/-- What a token is. -/
inductive Lexeme where
  | streamStart
  | streamEnd
  | version (major minor : Nat)
  | tagHandle (handle meaning : Text)
  | documentStart
  | documentEnd
  | blockSequenceStart
  | blockMappingStart
  | blockEnd
  | flowSequenceStart
  | flowSequenceEnd
  | flowMappingStart
  | flowMappingEnd
  | blockEntry
  | flowEntry
  | key
  | value
  | reference (name : Text)
  | anchor (name : Text)
  | tag (handle suffix : Text)
  | scalar (plain : Bool) (value : Text)
  deriving DecidableEq, Repr

/-- A token and the line it starts on, counted from zero. -/
structure Token where
  line : Nat
  lexeme : Lexeme
  deriving DecidableEq, Repr

end RobotMaze.Yaml

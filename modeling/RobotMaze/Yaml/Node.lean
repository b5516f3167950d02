import RobotMaze.Yaml.Tag

/-!
# YAML nodes

A document is a tree of scalars, sequences and mappings, each with its tag and the number of the
line it starts on.  A node can have an anchor, and an alias stands for the node with an anchor.
-/

namespace RobotMaze.Yaml

/-- A node of a document. -/
inductive Node where
  | scalar (line : Nat) (tag : Tag) (value : Text)
  | sequence (line : Nat) (tag : Tag) (items : List Node)
  | mapping (line : Nat) (tag : Tag) (entries : List (Node × Node))
  /-- The alias with a number, which stands for the anchored node with another number. -/
  | reference (line : Nat) (name : Text) (number target : Nat)
  deriving Repr

instance : Inhabited Node := ⟨.scalar 0 .null []⟩

namespace Node

/-- The line that a node starts on. -/
def line : Node → Nat
  | scalar n _ _ => n
  | sequence n _ _ => n
  | mapping n _ _ => n
  | reference n _ _ _ => n

/-- The text of a scalar, or the name of an alias. -/
def text : Node → Text
  | scalar _ _ value => value
  | reference _ name _ _ => name
  | _ => []

end Node

/-- A document: its root and the nodes that have anchors, in the order of the anchors. -/
structure Document where
  root : Node
  anchored : List Node
  deriving Repr

end RobotMaze.Yaml

import RobotMaze.Text

/-!
# YAML tags

A tag says what a node is.  The tags of the language itself share a long beginning, which is
shortened to two exclamation marks.
-/

namespace RobotMaze.Yaml

/-- What a node is. -/
inductive Tag where
  | null
  | bool
  | int
  | float
  | string
  | timestamp
  | binary
  | merge
  | sequence
  | mapping
  | other (name : Text)
  deriving DecidableEq, Repr

namespace Tag

/-- The beginning of the tags of the language. -/
def common : Text := "tag:yaml.org,2002:"

/-- The short name of a tag. -/
def text : Tag → Text
  | .null => "!!null"
  | .bool => "!!bool"
  | .int => "!!int"
  | .float => "!!float"
  | .string => "!!str"
  | .timestamp => "!!timestamp"
  | .binary => "!!binary"
  | .merge => "!!merge"
  | .sequence => "!!seq"
  | .mapping => "!!map"
  | .other name => name

/-- The tags that have a name in the language. -/
def named : List Tag :=
  [.null, .bool, .int, .float, .string, .timestamp, .binary, .merge, .sequence, .mapping]

/-- The tag with a name, which may be written in full. -/
def ofText (t : Text) : Tag :=
  let short : Text := if common.isPrefixOf t then "!!" ++ t.drop common.length else t
  (named.find? fun tag => tag.text == short).getD (.other short)

end Tag

end RobotMaze.Yaml

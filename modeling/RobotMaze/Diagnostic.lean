import RobotMaze.Text

/-!
# Diagnostics

A diagnostic is a fatal error tied to a place of the source.  A `Report` is an error on its way to
the user: a plain text, a diagnostic, or either of them under a label.
-/

namespace RobotMaze

/-- Where an error comes from. -/
inductive Origin where
  /-- The source is no program. -/
  | source
  /-- The program cannot go on. -/
  | execution
  | unspecified
  deriving DecidableEq, Repr

/-- An error tied to a place of the source. -/
structure Diagnostic where
  origin : Origin
  description : Text
  /-- The line, counted from one. -/
  line : Int
  /-- The column, counted from one, or zero if no column is known. -/
  column : Int
  deriving DecidableEq, Repr

/-- An error on its way to the user. -/
inductive Report where
  | plain (message : Text)
  | diagnostic (d : Diagnostic)
  | labelled (label : Text) (inner : Report)
  deriving DecidableEq, Repr

/-- The word that opens the text of a diagnostic. -/
def Origin.label : Origin → Text
  | .source => "SyntaxError"
  | .execution => "RuntimeError"
  | .unspecified => "Error"

/-- The text of a diagnostic, without the source. -/
def Diagnostic.text (d : Diagnostic) : Text :=
  d.origin.label ++ ": " ++ d.description ++ " at line " ++ Text.ofInt d.line

namespace Report

/-- The text of a report: its labels, then the error. -/
def text : Report → Text
  | plain message => message
  | diagnostic d => d.text
  | labelled label inner => label ++ ": " ++ inner.text

/-- The diagnostic under the labels, if there is one. -/
def diagnostic? : Report → Option Diagnostic
  | plain _ => none
  | diagnostic d => some d
  | labelled _ inner => inner.diagnostic?

/-- Whether a report holds a diagnostic of the given origin. -/
def hasOrigin (origin : Origin) (r : Report) : Bool :=
  r.diagnostic?.any fun d => d.origin == origin

end Report

end RobotMaze

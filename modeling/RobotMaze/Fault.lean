import RobotMaze.Token
import RobotMaze.Diagnostic
import RobotMaze.Text.Quoted

/-!
# Faults

Everything that can be wrong with a program or stop a run, as causes.  `Fault.origin` says whether
the source or the run is at fault and `Fault.description` holds the wording; an `Error` is a fault
at a place.
-/

namespace RobotMaze

/-- Why a text is no boolean expression. -/
inductive ExprProblem where
  /-- No word of the language starts here. -/
  | unreadable (rest : Text)
  /-- A word that does not belong here, or the end of the text. -/
  | unexpected (found : Option Text)
  /-- A word, or the end of the text, where an operator needs its second term. -/
  | termExpected (found : Option Text)
  deriving DecidableEq, Repr

/-- What can be wrong with a program or stop a run. -/
inductive Fault where
  | crampedAssignment
  | invalidToken (word : Text) (hint : Option Kind)
  | emptyProgram
  | unclosedProgram
  | otherwiseArguments
  | otherwiseOutsideBranch
  | duplicateOtherwise (header : Int)
  | missingEnd (opener : Kind)
  | missingExpression
  | invalidExpression (source : Text) (problem : ExprProblem)
  | invalidTerm
  | notSensor (kind : Kind)
  | notAction (kind : Kind)
  | loadNotFirst
  | loadRepeated
  | loadWithoutPreset
  | loadArguments
  | actionArguments (a : Action)
  | strayEnd
  | strayOtherwise
  | notStatement (word : Text)
  | malformedAssignment
  | invalidPreset (word : Text)
  | loadFailed (preset : Text) (reason : Text)
  | undeclared (name : Text)
  | noMaze (kind : Kind)
  | loopExceeded (cap : Int)
  deriving DecidableEq, Repr

/-- A fault at a place of the source. -/
structure Error where
  fault : Fault
  line : Int
  /-- The column, or zero if the fault has none. -/
  column : Int := 0
  deriving DecidableEq, Repr

namespace ExprProblem

/-- How many characters of unreadable text are shown. -/
def sampleLength : Nat := 16

/-- The beginning of a text, with the replacement character for bytes that are no UTF-8. -/
def sample (t : Text) : Text :=
  let chars := t.atoms.map fun
    | .char c => c
    | .stray _ => Char.ofNat 0xFFFD
  (chars.take sampleLength).flatMap Text.ofChar
    ++ (if chars.length > sampleLength then "..." else "")

/-- The word shown for what was found. -/
def foundText (found : Option Text) : Text := found.getD "<EOF>"

/-- The wording of a problem. -/
def message : ExprProblem → Text
  | unreadable rest => "lexer: invalid input text " ++ Text.quoted (sample rest)
  | unexpected found => "unexpected token " ++ Text.quoted (foundText found)
  | termExpected found => "unexpected token " ++ Text.quoted (foundText found) ++ " (expected Term)"

end ExprProblem

namespace Fault

/-- Whether the source or the run is at fault. -/
def origin : Fault → Origin
  | invalidPreset _ => .execution
  | loadFailed _ _ => .execution
  | undeclared _ => .execution
  | noMaze _ => .execution
  | loopExceeded _ => .execution
  | _ => .source

/-- The wording of a fault. -/
def description : Fault → Text
  | crampedAssignment => "`:=` must be surrounded by spaces"
  | invalidToken word (some hint) =>
    "invalid token " ++ Text.quoted word ++ " (did you mean " ++ hint.text ++ "?)"
  | invalidToken word none => "invalid token " ++ Text.quoted word
  | emptyProgram => "empty program"
  | unclosedProgram => "the last line must be a bare END"
  | otherwiseArguments => "OTHERWISE takes no arguments"
  | otherwiseOutsideBranch => "OTHERWISE outside of an IF block"
  | duplicateOtherwise header =>
    "duplicate OTHERWISE in IF block opened at line " ++ Text.ofInt header
  | missingEnd opener => "missing END for " ++ opener.text
  | missingExpression => "missing boolean expression"
  | invalidExpression source problem =>
    "invalid boolean expression " ++ Text.quoted source ++ ": " ++ problem.message
  | invalidTerm => "invalid term"
  | notSensor kind => kind.text ++ " is not a sensor"
  | notAction kind => kind.text ++ " is not an action"
  | loadNotFirst => "LOAD must be the first statement"
  | loadRepeated => "LOAD can only be present once"
  | loadWithoutPreset => "LOAD needs a preset id: 1, 2 or 3"
  | loadArguments => "LOAD takes exactly one preset id"
  | actionArguments a => a.word ++ " takes no arguments"
  | strayEnd => "END without a matching IF or WHILE"
  | strayOtherwise => "OTHERWISE without a matching IF"
  | notStatement word => "a statement cannot start with " ++ word
  | malformedAssignment => "malformed assignment, expected: name := expression"
  | invalidPreset word =>
    "invalid preset " ++ Text.quoted word ++ ", LOAD accepts 1, 2 or 3"
  | loadFailed preset reason => "loading preset " ++ preset ++ ": " ++ reason
  | undeclared name => "undeclared variable " ++ name
  | noMaze kind => kind.text ++ " used before a maze was loaded"
  | loopExceeded cap => "WHILE loop exceeded " ++ Text.ofInt cap ++ " iterations"

end Fault

/-- An error as a diagnostic. -/
def Error.diagnostic (e : Error) : Diagnostic where
  origin := e.fault.origin
  description := e.fault.description
  line := e.line
  column := e.column

end RobotMaze

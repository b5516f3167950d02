import RobotMaze.Expr
import RobotMaze.Expr.Lexeme

/-!
# Reading expressions

An expression is a term followed by any number of pairs of an operator and a term.  The operators
are `OR`, `AND`, and `AND OR`, which means `OR`.  Every lexeme has to be used.
-/

namespace RobotMaze

namespace Expr

/-- What the reader is ready for. -/
inductive Expecting where
  /-- An operator or the end. -/
  | operator
  /-- `OR`, or the second term of an `AND`. -/
  | afterAnd
  /-- The second term of an operator. -/
  | operand (c : Connective)
  deriving DecidableEq, Repr

/-- The term that a lexeme stands for, if it stands for one. -/
def operand? (l : Lexeme) : Option Operand :=
  match Kind.ofWord? l.text with
  | some (.truth _) => some ⟨.literal l.text, l.offset⟩
  | some (.sensor _) => some ⟨.sensor l.text, l.offset⟩
  | _ => if l.sort = .name then some ⟨.name l.text, l.offset⟩ else none

/-- Reads pairs of an operator and a term up to the end. -/
def parseTail : Expecting → List Lexeme → Except ExprProblem (List (Connective × Operand))
  | .operator, [] => .ok []
  | .operator, l :: rest =>
    if l.text = Kind.or.text then parseTail (.operand .or) rest
    else if l.text = Kind.and.text then parseTail .afterAnd rest
    else .error (.unexpected (some l.text))
  | .afterAnd, [] => .error (.termExpected none)
  | .afterAnd, l :: rest =>
    if l.text = Kind.or.text then parseTail (.operand .or) rest
    else
      match operand? l with
      | some o => (parseTail .operator rest).map ((.and, o) :: ·)
      | none => .error (.termExpected (some l.text))
  | .operand _, [] => .error (.termExpected none)
  | .operand c, l :: rest =>
    match operand? l with
    | some o => (parseTail .operator rest).map ((c, o) :: ·)
    | none => .error (.termExpected (some l.text))

/-- The expression that a row of lexemes stands for. -/
def ofLexemes : List Lexeme → Except ExprProblem Expr
  | [] => .error (.unexpected none)
  | l :: rest =>
    match operand? l with
    | some head => (parseTail .operator rest).map fun tail => ⟨head, tail⟩
    | none => .error (.unexpected (some l.text))

/-- The expression that a text stands for. -/
def ofText (t : Text) : Except ExprProblem Expr := Lexeme.scan t >>= ofLexemes

/-- The expression that the tokens of a line stand for. -/
def ofTokens (tokens : List Token) (line : Int) : Except Error Expr :=
  match tokens with
  | [] => .error { fault := .missingExpression, line := line }
  | first :: _ =>
    let source := Token.line tokens
    match ofText source with
    | .ok e => .ok e
    | .error problem =>
      .error { fault := .invalidExpression source problem, line := line, column := first.column }

end Expr

end RobotMaze

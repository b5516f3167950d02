import RobotMaze.Diagnostic

/-!
# Source snippets

A diagnostic is shown with its line, the line before and the line after it, and a caret under the
column.  `Snippet.lines` is the list of lines it counts in: line feeds end lines, alone or after a
carriage return.
-/

namespace RobotMaze

namespace Snippet

/-- The text with every carriage return that stands before a line feed taken out. -/
def dropReturns : Text → Text
  | [] => []
  | [b] => [b]
  | b :: c :: rest =>
    if b = Text.carriageReturn ∧ c = Text.lineFeed then
      dropReturns (c :: rest)
    else
      b :: dropReturns (c :: rest)

/-- The lines of a source as a snippet shows them. -/
def lines (src : Text) : List Text := Text.splitOn Text.lineFeed (dropReturns src)

/-- The offset of the first byte that is neither space nor tab, and zero if there is none. -/
def indent (line : Text) : Nat :=
  let blanks := line.takeWhile fun b => b == Text.space || b == Text.tab
  if blanks.length < line.length then blanks.length else 0

/-- A line of source behind its number. -/
def numbered (n : Nat) (line : Text) : Text :=
  Text.padded 4 n ++ " | " ++ line ++ "\n"

/-- The line of the source that a diagnostic points at: the nearest one that exists. -/
def lineNumber (count : Nat) (line : Int) : Nat :=
  min (max line 1).toNat count

/-- The column that a diagnostic points at: its own, or the first visible byte of the line. -/
def caretColumn (line : Text) (column : Int) : Nat :=
  if column < 1 then indent line + 1 else column.toNat

end Snippet

/-- The text of a diagnostic with the lines around its place and a caret under its column. -/
def Diagnostic.snippet (d : Diagnostic) (src : Text) : Text :=
  let lines := Snippet.lines src
  let n := Snippet.lineNumber lines.length d.line
  let line (k : Nat) : Text := lines.getD (k - 1) []
  let caret := Snippet.caretColumn (line n) d.column
  d.text ++ "\n\n"
    ++ (if 1 < n then Snippet.numbered (n - 1) (line (n - 1)) else [])
    ++ Snippet.numbered n (line n)
    ++ ("     | " ++ List.replicate (caret - 1) Text.space ++ "^\n")
    ++ (if n < lines.length then Snippet.numbered (n + 1) (line (n + 1)) else [])

/-- A report as the user sees it: the snippet of its diagnostic, or its text if it has none. -/
def Report.snippet (r : Report) (src : Text) : Text :=
  match r.diagnostic? with
  | some d => d.snippet src
  | none => r.text

end RobotMaze

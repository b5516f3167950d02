import RobotMaze.Yaml.Cursor

/-!
# YAML scalars

Plain scalars, scalars in quotes and blocks of text.  Lines of a plain or quoted scalar are folded:
a single line end becomes a space, and further ones stay.
-/

namespace RobotMaze.Yaml.Scan

/-! ## Folding -/

/-- Blanks and line ends between two words of a scalar, each list with the last character first. -/
structure Gap where
  /-- Whether there is a line end among them. -/
  folded : Bool := false
  /-- The blanks, if there is no line end. -/
  blanks : List Char := []
  /-- The first line end, if it is not an escaped one. -/
  first : List Char := []
  /-- The line ends after it. -/
  more : List Char := []
  deriving DecidableEq, Repr

/-- What a gap stands for, the last character first. -/
def Gap.text (g : Gap) : List Char :=
  if g.folded then
    if g.first = ['\n'] then (if g.more.isEmpty then [' '] else g.more) else g.more ++ g.first
  else g.blanks

/-- Moves over blanks and line ends.  After a line end there is no tab before the column `indent`.
The scalar starts on the line `start`. -/
def gapFrom (start indent : Nat) : (fuel : Nat) → Gap → Scan Gap
  | 0, _ => unfinished
  | fuel + 1, g => do
    let c ← peek
    if isBlank c then
      if g.folded && (← get).column < indent && c == '\t' then fail start .tabInPlain
      skip
      need 1
      gapFrom start indent fuel (if g.folded then g else { g with blanks := c :: g.blanks })
    else if isBreak c then
      need 2
      let b ← takeLine
      need 1
      gapFrom start indent fuel <|
        if g.folded then { g with more := b :: g.more }
        else { folded := true, first := [b] }
    else return g

/-! ## Plain scalars -/

/-- The marks that end a plain scalar between brackets. -/
def flowMarks : List Char := [',', '?', '[', ']', '\x7b', '\x7d']

/-- Whether a plain scalar ends before a character that another one follows. -/
def endsPlain (inFlow : Bool) (c next : Char) : Bool :=
  isWordEnd c || (c == ':' && isWordEnd next) || (inFlow && flowMarks.contains c)

/-- The characters of a plain scalar up to its end or the next gap, behind those already read. -/
def plainWord (inFlow : Bool) : (fuel : Nat) → List Char → Scan (List Char)
  | 0, _ => unfinished
  | fuel + 1, seen => do
    let c ← peek
    if endsPlain inFlow c (← peekAt 1) then return seen
    else
      skip
      need 2
      plainWord inFlow fuel (c :: seen)

/-- The words of a plain scalar that starts on the line `start`, and the gap behind it. -/
def plainWords (inFlow : Bool) (start indent : Nat) : (fuel : Nat) → List Char → Gap →
    Scan (List Char × Gap)
  | 0, _, _ => unfinished
  | fuel + 1, seen, gap => do
    need 4
    if (← atDocumentMark) || (← peek) == '#' then return (seen, gap)
    let size := (← get).size
    let last := endsPlain inFlow (← peek) (← peekAt 1)
    let seen ← if last then pure seen else plainWord inFlow size (gap.text ++ seen)
    let gap : Gap := if last then gap else {}
    let c ← peek
    if !(isBlank c || isBreak c) then return (seen, gap)
    need 1
    let gap ← gapFrom start indent size gap
    if !inFlow && (← get).column < indent then return (seen, gap)
    plainWords inFlow start indent fuel seen gap

/-- A plain scalar, and whether the cursor has passed a line end behind it.  Outside of brackets the
lines of the scalar are indented by `indent` columns at least. -/
def plain (inFlow : Bool) (indent : Nat) : Scan (List Char × Bool) := do
  let (seen, gap) ← plainWords inFlow (← get).line indent (← get).size [] {}
  return (seen.reverse, gap.folded)

/-! ## Scalars in quotes -/

/-- The character that a letter stands for after a backslash. -/
def unescape? : Char → Option Char
  | '0' => some '\x00'
  | 'a' => some '\x07'
  | 'b' => some '\x08'
  | 't' => some '\t'
  | '\t' => some '\t'
  | 'n' => some '\n'
  | 'v' => some '\x0B'
  | 'f' => some '\x0C'
  | 'r' => some '\r'
  | 'e' => some '\x1B'
  | ' ' => some ' '
  | '"' => some '"'
  | '\'' => some '\''
  | '\\' => some '\\'
  | 'N' => some '\x85'
  | '_' => some '\xA0'
  | 'L' => some '\u2028'
  | 'P' => some '\u2029'
  | _ => none

/-- The number of hexadecimal digits that follow a letter after a backslash. -/
def codeLength? : Char → Option Nat
  | 'x' => some 2
  | 'u' => some 4
  | 'U' => some 8
  | _ => none

/-- The value of a hexadecimal digit. -/
def hexDigit? (c : Char) : Option Nat :=
  if c.isDigit then some (c.toNat - 48)
  else if 'a' ≤ c && c ≤ 'f' then some (c.toNat - 87)
  else if 'A' ≤ c && c ≤ 'F' then some (c.toNat - 55)
  else none

/-- The number of hexadecimal digits. -/
def hexNumber? (cs : List Char) : Option Nat :=
  cs.foldlM (fun n c => (hexDigit? c).map (n * 16 + ·)) 0

/-- Moves over some characters. -/
def skipMany : (count : Nat) → Scan Unit
  | 0 => return
  | count + 1 => do
    skip
    skipMany count

/-- The character that an escape sequence stands for, in a scalar that starts on the line `start`.
-/
def escaped (start : Nat) : Scan Char := do
  let c ← peekAt 1
  match unescape? c, codeLength? c with
  | some d, _ =>
    skipMany 2
    return d
  | none, some count =>
    skipMany 2
    need count
    match hexNumber? ((← get).ahead.take count) with
    | some value =>
      if !value.isValidChar then fail start .noEscapedCharacter
      skipMany count
      return Char.ofNat value
    | none => fail start .noHexDigit
  | none, none => fail start .unknownEscape

/-- The characters of a quoted scalar up to its end or the next gap, behind those already read, and
whether an escaped line end comes next.  The scalar starts on the line `start`. -/
def quotedWord (start : Nat) (quote : Char) : (fuel : Nat) → List Char → Scan (List Char × Bool)
  | 0, _ => unfinished
  | fuel + 1, seen => do
    let c ← peek
    let next ← peekAt 1
    if isWordEnd c then return (seen, false)
    else if quote == '\'' && c == '\'' && next == '\'' then
      skip
      skip
      need 2
      quotedWord start quote fuel ('\'' :: seen)
    else if c == quote then return (seen, false)
    else if quote == '"' && c == '\\' && isBreak next then
      need 3
      skip
      skipLine
      return (seen, true)
    else if quote == '"' && c == '\\' then
      let d ← escaped start
      need 2
      quotedWord start quote fuel (d :: seen)
    else
      skip
      need 2
      quotedWord start quote fuel (c :: seen)

/-- The words of a quoted scalar up to its last quote.  The scalar starts on the line `start`. -/
def quotedWords (start : Nat) (quote : Char) : (fuel : Nat) → List Char → Scan (List Char)
  | 0, _ => unfinished
  | fuel + 1, seen => do
    need 4
    if ← atDocumentMark then fail start .documentMarkInQuotes
    if (← peek) == endOfText then fail start .endInQuotes
    let size := (← get).size
    let (seen, folded) ← quotedWord start quote size seen
    need 1
    if (← peek) == quote then return seen
    let gap ← gapFrom start 0 size { folded := folded }
    quotedWords start quote fuel (gap.text ++ seen)

/-- A scalar in quotes. -/
def quoted (quote : Char) : Scan (List Char) := do
  let start := (← get).line
  skip
  let seen ← quotedWords start quote (← get).size []
  skip
  return seen.reverse

/-! ## Blocks of text -/

/-- What becomes of the line ends at the end of a block. -/
inductive Chomp where
  | keep
  | clip
  | strip
  deriving DecidableEq, Repr

/-- A sign at the head of a block. -/
def chomp? : Scan (Option Chomp) := do
  let c ← peek
  let chomp : Option Chomp :=
    if c == '+' then some .keep else if c == '-' then some .strip else none
  if chomp.isSome then skip
  return chomp

/-- A digit at the head of a block on the line `start`, which is not zero. -/
def increment? (start : Nat) : Scan (Option Nat) := do
  let c ← peek
  if c.isDigit then
    if c == '0' then fail start .indentationZero
    skip
    return some (c.toNat - 48)
  else return none

/-- The head of a block on the line `start`: its sign and digit, in any order. -/
def blockHead (start : Nat) : Scan (Chomp × Option Nat) := do
  need 1
  match ← chomp? with
  | some chomp =>
    need 1
    return (chomp, ← increment? start)
  | none =>
    match ← increment? start with
    | some n =>
      need 1
      return ((← chomp?).getD .clip, some n)
    | none => return (.clip, none)

/-- Moves over spaces up to the column `indent`, or over all of them if it is zero. -/
def skipIndent (indent : Nat) : (fuel : Nat) → Scan Unit
  | 0 => unfinished
  | fuel + 1 => do
    if (indent == 0 || (← get).column < indent) && (← peek) == ' ' then
      skip
      need 1
      skipIndent indent fuel

/-- Moves over indentation and empty lines.  The lines of a block are indented by `indent` columns,
or by any number if it is zero.  Gives the line ends, the last first, and the largest column. -/
def blockGap (start indent : Nat) : (fuel widest : Nat) → List Char → Scan (List Char × Nat)
  | 0, _, _ => unfinished
  | fuel + 1, widest, breaks => do
    need 1
    let size := (← get).size
    skipIndent indent size
    let column := (← get).column
    let widest := max widest column
    let c ← peek
    if (indent == 0 || column < indent) && c == '\t' then fail start .tabInBlock
    if isBreak c then
      need 2
      let b ← takeLine
      blockGap start indent fuel widest (b :: breaks)
    else return (breaks, widest)

/-- The lines of a block that is indented by `indent` columns.  `breaks` holds the line ends before
the next line, `last` the end of the line before them, and `spaced` says whether that line starts
with a blank. -/
def blockLines (literal : Bool) (start indent : Nat) : (fuel : Nat) → (spaced : Bool) →
    (last breaks seen : List Char) → Scan (List Char × List Char × List Char)
  | 0, _, _, _, _ => unfinished
  | fuel + 1, spaced, last, breaks, seen => do
    let c ← peek
    if (← get).column != indent || c == endOfText then return (last, breaks, seen)
    let joined :=
      if !literal && !spaced && !isBlank c && last == ['\n'] then
        if breaks.isEmpty then ' ' :: seen else seen
      else last ++ seen
    let size := (← get).size
    let line ← takeWhile (fun c => !isLineEnd c) size []
    need 2
    let ended := isBreak (← peek)
    let b ← takeLine
    let (more, _) ← blockGap start indent size 0 []
    blockLines literal start indent fuel (isBlank c) (if ended then [b] else []) more
      (line.reverse ++ (breaks ++ joined))

/-- A block of text inside a block that is indented by `outer` columns, of which there may be none.
-/
def block (literal : Bool) (outer : Option Nat) : Scan (List Char) := do
  let start := (← get).line
  skip
  let (chomp, increment) ← blockHead start
  skipBlanks
  if (← peek) == '#' then
    let _ ← span fun c => !isLineEnd c
  if !isLineEnd (← peek) then fail start .noLineEnd
  if isBreak (← peek) then
    need 2
    skipLine
  let size := (← get).size
  let given := (increment.map (outer.getD 0 + ·)).getD 0
  let (breaks, widest) ← blockGap start given size 0 []
  let least := max 1 ((outer.map (· + 1)).getD 0)
  let indent := if given == 0 then max widest least else given
  need 1
  let (last, breaks, seen) ← blockLines literal start indent size false [] breaks []
  let tail :=
    match chomp with
    | .strip => []
    | .clip => last
    | .keep => breaks ++ last
  return (tail ++ seen).reverse

end RobotMaze.Yaml.Scan

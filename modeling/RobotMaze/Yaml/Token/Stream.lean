import RobotMaze.Yaml.Token.Property
import Std.Data.TreeMap

/-!
# Streams of YAML tokens

Tokens are read on demand, three at least before the first of them is used.  What looks like a
scalar or a bracket may turn out to be a key when a colon follows, and then the mark of the key, and
perhaps the beginning of a mapping, stand before it.  So every level of brackets remembers one
possible key, which has to be on one line and at most 1024 characters before its colon.

* `Stream` is a text of which some tokens are read;
* `Tokens.peek` and `Tokens.drop` use them one after another.
-/

namespace RobotMaze.Yaml

/-- What may turn out to be a key. -/
structure PossibleKey where
  possible : Bool := false
  /-- Whether nothing else may stand there. -/
  required : Bool := false
  /-- The number of its first token. -/
  token : Nat := 0
  index : Nat := 0
  line : Nat := 0
  column : Nat := 0
  deriving DecidableEq, Repr

/-- A text of which some tokens are read. -/
structure Stream where
  cursor : Cursor
  started : Bool := false
  /-- The tokens that are used next. -/
  queue : List Token := []
  /-- The tokens behind them that are read already, the last first. -/
  recent : List Token := []
  /-- The number of tokens that are used. -/
  used : Nat := 0
  /-- The number of tokens that are read. -/
  count : Nat := 0
  /-- The column of the innermost block, or `-1` outside of all blocks. -/
  indent : Int := -1
  /-- The columns of the blocks around it. -/
  outer : List Int := []
  /-- Whether a key may start here. -/
  keyAllowed : Bool := true
  /-- The possible keys of the levels of brackets, the innermost last. -/
  keys : Array PossibleKey := #[{}]
  /-- The levels of the tokens that wait for a colon, by their numbers. -/
  waiting : Std.TreeMap Nat Nat := {}

/-- A computation that reads tokens. -/
abbrev Tokens := StateT Stream (Except Malformation)

namespace Stream

/-- The stream of a text. -/
def ofText (t : Text) : Stream := { cursor := Cursor.ofText t }

/-- The number of brackets around the cursor. -/
def level (s : Stream) : Nat := s.keys.size - 1

/-- Whether the cursor is between brackets. -/
def inFlow (s : Stream) : Bool := s.level != 0

/-- The possible key of a level. -/
def keyAt (s : Stream) (level : Nat) : PossibleKey := s.keys.getD level {}

/-- The possible key of the innermost level. -/
def key (s : Stream) : PossibleKey := s.keyAt s.level

/-- The stream in which what stands at a level is no key. -/
def giveUp (s : Stream) (level : Nat) : Stream :=
  { s with keys := s.keys.modify level fun k => { k with possible := false } }

/-- Whether a possible key is still on its line and near enough to be one. -/
def isNear (s : Stream) (k : PossibleKey) : Bool :=
  k.line == s.cursor.line && s.cursor.index ≤ k.index + 1024

/-- The stream in which a token waits no longer. -/
def forget (s : Stream) (token : Nat) : Stream := { s with waiting := s.waiting.erase token }

/-- The stream with a token behind all others. -/
def push (s : Stream) (line : Nat) (lexeme : Lexeme) : Stream :=
  { s with recent := ⟨line, lexeme⟩ :: s.recent, count := s.count + 1 }

/-- The stream with a token before the token of a given number, which is not used yet. -/
def insert (s : Stream) (number line : Nat) (lexeme : Lexeme) : Stream :=
  let token : Token := ⟨line, lexeme⟩
  let distance := s.count - number
  if hasLength distance s.recent then
    { s with
      recent := s.recent.take distance ++ token :: s.recent.drop distance
      count := s.count + 1 }
  else
    let place := number - s.used
    { s with
      queue := s.queue.take place ++ token :: s.queue.drop place
      count := s.count + 1 }

/-- The next token that is read already. -/
def next? (s : Stream) : Option Token := s.queue.head?.or s.recent.getLast?

/-- The stream behind its next token. -/
def advance (s : Stream) : Stream :=
  match s.queue with
  | _ :: rest => { s with queue := rest, used := s.used + 1 }
  | [] => { s with queue := s.recent.reverse.tail, recent := [], used := s.used + 1 }

end Stream

namespace Tokens

/-- The greatest depth of brackets and of blocks. -/
def maxDepth : Nat := 10000

/-- Moves the cursor of a stream. -/
def scan {α : Type} (p : Scan α) : Tokens α := fun s =>
  (p s.cursor).map fun (a, c) => (a, { s with cursor := c })

/-- Fails with a problem of something that started on the line `line`. -/
def fail {α : Type} (line : Nat) (p : Problem) : Tokens α := scan (Scan.fail line p)

/-! ## Possible keys -/

/-- Whether the possible key of a level can still be one.  Otherwise it is given up, unless it is
required. -/
def keyHolds (level : Nat) : Tokens Bool := do
  let s ← get
  let k := s.keyAt level
  if !k.possible then return false
  else if s.isNear k then return true
  else if k.required then fail k.line .noColon
  else
    set (s.giveUp level)
    return false

/-- Gives up the possible key of the innermost level. -/
def dropKey : Tokens Unit := do
  let s ← get
  let k := s.key
  if k.possible then
    if k.required then fail k.line .noColon
    set ((s.giveUp s.level).forget k.token)

/-- Remembers a possible key at the cursor, if one may start there. -/
def saveKey : Tokens Unit := do
  if (← get).keyAllowed then
    dropKey
    modify fun s =>
      let k : PossibleKey :=
        { possible := true
          required := !s.inFlow && s.indent == s.cursor.column
          token := s.count
          index := s.cursor.index
          line := s.cursor.line
          column := s.cursor.column }
      { s with
        keys := s.keys.setIfInBounds s.level k
        waiting := s.waiting.insert s.count s.level }

/-- Enters brackets. -/
def openBracket : Tokens Unit := do
  let s ← get
  if maxDepth ≤ s.level then fail s.cursor.line .tooDeep
  set { s with keys := s.keys.push { token := s.count, line := s.cursor.line } }

/-- Leaves brackets, if the cursor is between any. -/
def closeBracket : Tokens Unit := modify fun s =>
  if s.inFlow then { s.forget s.key.token with keys := s.keys.pop } else s

/-! ## Indentation -/

/-- Enters a block at a column, unless the cursor is between brackets or in a block at that column
already.  The token `lexeme` stands before the token with a number, or at the end. -/
def enterBlock (column : Nat) (number : Option Nat) (line : Nat) (lexeme : Lexeme) :
    Tokens Unit := do
  let s ← get
  if !s.inFlow && s.indent < column then
    if maxDepth ≤ s.outer.length then fail s.key.line .tooDeep
    let t : Stream := { s with indent := column, outer := s.indent :: s.outer }
    match number with
    | some n => set (t.insert n line lexeme)
    | none => set (t.push line lexeme)

/-- Leaves the blocks at columns behind a column; the list holds the blocks around. -/
def leaveFrom (column : Int) : (outer : List Int) → Tokens Unit
  | [] => pure ()
  | around :: outer => do
    let s ← get
    if column < s.indent then
      set { s.push s.cursor.line .blockEnd with indent := around, outer := outer }
      leaveFrom column outer

/-- Leaves the blocks at columns behind a column, unless the cursor is between brackets. -/
def leaveBlocks (column : Int) : Tokens Unit := do
  let s ← get
  if !s.inFlow then leaveFrom column s.outer

/-! ## Comments -/

/-- How far comments are looked for. -/
def commentReach : Nat := 512

/-- The distance of a comment behind blanks. -/
def lineCommentAhead : (fuel distance : Nat) → Scan (Option Nat)
  | 0, _ => return none
  | fuel + 1, distance => do
    Scan.need (distance + 1)
    let c ← Scan.peekAt distance
    if isBlank c then lineCommentAhead fuel (distance + 1)
    else return if c == '#' then some distance else none

/-- The distance of a comment behind blanks and empty lines.  The search ends at other characters,
and at the line ends outside of ASCII. -/
def commentAhead : (fuel distance : Nat) → Scan (Option Nat)
  | 0, _ => return none
  | fuel + 1, distance => do
    Scan.need (distance + 1)
    let c ← Scan.peekAt distance
    if isBlank c || c == '\n' || c == '\r' then commentAhead fuel (distance + 1)
    else if isBreak c then
      if fuel != 0 then Scan.need (distance + 2)
      return none
    else return if c == '#' then some distance else none

/-- Moves over everything before an index, and then to the end of the line. -/
def skipComment (index : Nat) : (fuel : Nat) → Scan Unit
  | 0 => Scan.unfinished
  | fuel + 1 => do
    Scan.need 1
    let c ← Scan.peek
    if isLineEnd c then
      if index ≤ (← get).index then return
      Scan.need 2
      Scan.skipLine
    else Scan.skip
    skipComment index fuel

/-- Moves over a comment behind a token on the same line. -/
def skipLineComment : Scan Unit := do
  let c ← get
  if c.breaks == 0 then
    match ← lineCommentAhead commentReach 0 with
    | some distance => skipComment (c.index + distance) (2 * c.size)
    | none => return

/-- Moves over comments with nothing but empty lines between them. -/
def skipCommentsFrom : (fuel distance : Nat) → Scan Unit
  | 0, _ => Scan.unfinished
  | fuel + 1, distance => do
    let c ← get
    match ← commentAhead (commentReach - distance) distance with
    | some distance =>
      skipComment (c.index + distance) (2 * c.size)
      skipCommentsFrom fuel 1
    | none => return

/-- Moves over comments with nothing but empty lines between them. -/
def skipComments : Scan Unit := do
  skipCommentsFrom (← get).size 0

/-! ## Between tokens -/

/-- Moves over spaces, and over tabs where they may stand. -/
def skipSpaces (tabs : Bool) : Scan Unit := do
  let _ ← Scan.span fun c => c == ' ' || (tabs && c == '\t')

/-- Moves to the next token.  At the start of a line, one character is passed over if the decoded
characters start with a byte order mark. -/
def skipToToken : (fuel : Nat) → Tokens Unit
  | 0 => scan Scan.unfinished
  | fuel + 1 => do
    scan (Scan.need 1)
    let s ← get
    if s.cursor.column == 0 && s.cursor.marked then scan Scan.skip
    scan (skipSpaces (s.inFlow || !s.keyAllowed))
    if (← scan Scan.peek) == '#' then scan skipComments
    if isBreak (← scan Scan.peek) then
      scan (Scan.need 2)
      scan Scan.skipLine
      if !s.inFlow then modify fun s => { s with keyAllowed := true }
      skipToToken fuel

/-! ## Tokens of each kind -/

/-- Reads a token that starts at the cursor. -/
def emit (p : Scan Lexeme) : Tokens Unit := do
  let line := (← get).cursor.line
  let lexeme ← scan p
  modify fun s => s.push line lexeme

/-- Reads a token of `width` characters. -/
def emitMark (width : Nat) (lexeme : Lexeme) : Tokens Unit :=
  emit do
    Scan.skipMany width
    return lexeme

/-- Sets whether a key may follow. -/
def allowKey (allowed : Bool) : Tokens Unit := modify fun s => { s with keyAllowed := allowed }

/-- Leaves all blocks and gives up the possible key. -/
def leaveAll : Tokens Unit := do
  leaveBlocks (-1)
  dropKey
  allowKey false

/-- The end of the text, which also ends its last line. -/
def streamEnd : Tokens Unit := do
  modify fun s =>
    if s.cursor.column = 0 then s
    else { s with cursor := { s.cursor with column := 0, line := s.cursor.line + 1 } }
  leaveAll
  emitMark 0 .streamEnd

/-- An opening bracket. -/
def bracketStart (lexeme : Lexeme) : Tokens Unit := do
  saveKey
  openBracket
  allowKey true
  emitMark 1 lexeme

/-- A closing bracket. -/
def bracketEnd (lexeme : Lexeme) : Tokens Unit := do
  dropKey
  closeBracket
  allowKey false
  emitMark 1 lexeme

/-- A comma between brackets. -/
def flowEntry : Tokens Unit := do
  dropKey
  allowKey true
  emitMark 1 .flowEntry

/-- Enters a block at the cursor, where a key has to be allowed; otherwise there is a problem. -/
def enterHere (lexeme : Lexeme) (p : Problem) : Tokens Unit := do
  let s ← get
  if !s.inFlow then
    if !s.keyAllowed then fail s.cursor.line p
    enterBlock s.cursor.column none s.cursor.line lexeme

/-- The mark of an item. -/
def blockEntry : Tokens Unit := do
  enterHere .blockSequenceStart .itemNotAllowed
  dropKey
  allowKey true
  emitMark 1 .blockEntry

/-- The mark of a key. -/
def keyMark : Tokens Unit := do
  enterHere .blockMappingStart .keyNotAllowed
  dropKey
  allowKey (!(← get).inFlow)
  emitMark 1 .key

/-- The mark of a value, behind a possible key or behind the value of a key with a mark. -/
def valueMark : Tokens Unit := do
  let s ← get
  if ← keyHolds s.level then
    let k := s.key
    modify fun s => s.insert k.token k.line .key
    enterBlock k.column (some k.token) k.line .blockMappingStart
    modify fun s => (s.giveUp s.level).forget k.token
    allowKey false
  else
    enterHere .blockMappingStart .valueNotAllowed
    allowKey (!s.inFlow)
  emitMark 1 .value

/-- A token that may be a key. -/
def keyToken (p : Scan Lexeme) : Tokens Unit := do
  saveKey
  allowKey false
  emit p

/-- A plain scalar. -/
def plainScalar : Tokens Unit := do
  saveKey
  allowKey false
  let s ← get
  let (value, folded) ← scan (Scan.plain s.inFlow (s.indent + 1).toNat)
  modify fun t => t.push s.cursor.line (.scalar true (Scan.bytes value))
  if folded then allowKey true

/-- A block of text. -/
def blockScalar (literal : Bool) : Tokens Unit := do
  dropKey
  allowKey true
  let s ← get
  let outer := if s.indent < 0 then none else some s.indent.toNat
  emit do return .scalar false (Scan.bytes (← Scan.block literal outer))

/-! ## The next token -/

/-- The marks that no plain scalar starts with, unless it is a dash, a question mark or a colon
before other characters. -/
def indicators : List Char :=
  ['-', '?', ':', ',', '[', ']', '\x7b', '\x7d', '#', '&', '*', '!', '|', '>', '\'', '"', '%', '@',
   '\x60']

/-- Whether a plain scalar starts with a character before another. -/
def startsPlain (inFlow : Bool) (c next : Char) : Bool :=
  !(isWordEnd c || indicators.contains c) || (c == '-' && !isBlank next)
    || (!inFlow && (c == '?' || c == ':') && !isWordEnd next)

/-- Reads the token at the cursor, which is no mark of a document and no directive. -/
def content (c next : Char) : Tokens Unit := do
  let inFlow := (← get).inFlow
  if c == '[' then bracketStart .flowSequenceStart
  else if c == '\x7b' then bracketStart .flowMappingStart
  else if c == ']' then bracketEnd .flowSequenceEnd
  else if c == '\x7d' then bracketEnd .flowMappingEnd
  else if c == ',' then flowEntry
  else if c == '-' && isWordEnd next then blockEntry
  else if c == '?' && (inFlow || isWordEnd next) then keyMark
  else if c == ':' && (inFlow || isWordEnd next) then valueMark
  else if c == '*' then keyToken do return .reference (← Scan.anchorName)
  else if c == '&' then keyToken do return .anchor (← Scan.anchorName)
  else if c == '!' then keyToken do
    let (handle, suffix) ← Scan.tag
    return .tag handle suffix
  else if c == '|' && !inFlow then blockScalar true
  else if c == '>' && !inFlow then blockScalar false
  else if c == '\'' || c == '"' then keyToken do
    return .scalar false (Scan.bytes (← Scan.quoted c))
  else if startsPlain inFlow c next then plainScalar
  else fail (← get).cursor.line .noToken
  if !(c == '-' && isWordEnd next) then scan skipLineComment

/-- Reads the next token, perhaps with ends of blocks before it. -/
def read : Tokens Unit := do
  scan (Scan.need 1)
  let s ← get
  if !s.started then
    set { s.push s.cursor.line .streamStart with started := true }
  else
    skipToToken (s.cursor.size)
    leaveBlocks (← get).cursor.column
    scan (Scan.need 4)
    let column := (← get).cursor.column
    let c ← scan Scan.peek
    if c == endOfText then streamEnd
    else if column == 0 && c == '%' then
      leaveAll
      emit Scan.directive
    else if ← scan Scan.atDocumentMark then
      leaveAll
      emitMark 3 (if c == '-' then .documentStart else .documentEnd)
    else content c (← scan (Scan.peekAt 1))

/-- Reads tokens until there are three, and the first of them waits for no colon. -/
def fill : (fuel : Nat) → Tokens Unit
  | 0 => scan Scan.unfinished
  | fuel + 1 => do
    let s ← get
    if s.used + 2 < s.count then
      match s.waiting.get? s.used with
      | none => return
      | some level => if !(← keyHolds level) then return
    read
    fill fuel

/-- The next token. -/
def peek : Tokens Token := do
  fill (4 * (← get).cursor.size)
  match (← get).next? with
  | some t => return t
  | none => scan Scan.unfinished

/-- Uses the next token. -/
def drop : Tokens Unit := modify Stream.advance

end Tokens

end RobotMaze.Yaml

import RobotMaze.Text.Atom
import RobotMaze.Yaml.Problem

/-!
# Reading the characters of a YAML text

A text is UTF-8, or UTF-16 if it starts with a byte order mark that says so.  It is taken in blocks
of 512 bytes, and a block is decoded as a whole: a malformed character, or one that may not stand in
a text, is noticed as soon as a character of its block is asked for, and not before.

* `Cursor` is a place in a text with the characters behind it;
* `Scan` is a computation that moves a cursor and can fail.
-/

namespace RobotMaze.Yaml

/-! ## Classes of characters -/

/-- The character that stands for the end of the text; it cannot stand in one. -/
def endOfText : Char := '\x00'

/-- The byte order mark. -/
def byteOrderMark : Char := '\uFEFF'

/-- Whether a character ends a line. -/
def isBreak (c : Char) : Bool :=
  c == '\n' || c == '\r' || c == '\x85' || c == '\u2028' || c == '\u2029'

/-- Whether a character is a space or a tab. -/
def isBlank (c : Char) : Bool := c == ' ' || c == '\t'

/-- Whether a character ends a line or the text. -/
def isLineEnd (c : Char) : Bool := isBreak c || c == endOfText

/-- Whether a character ends a word. -/
def isWordEnd (c : Char) : Bool := isBlank c || isLineEnd c

/-- Whether a character can stand in the name of an anchor. -/
def isNameChar (c : Char) : Bool := c.isAlphanum || c == '_' || c == '-'

/-- The closed ranges of the code points that may stand in a text. -/
def allowedRanges : List (Nat × Nat) :=
  [(9, 10), (13, 13), (0x20, 0x7E), (0x85, 0x85), (0xA0, 0xD7FF), (0xE000, 0xFFFD),
   (0x10000, 0x10FFFF)]

/-- Whether a character may stand in a text. -/
def isAllowed (c : Char) : Bool :=
  allowedRanges.any fun r => r.1 ≤ c.toNat && c.toNat ≤ r.2

/-! ## Decoding -/

/-- Whether a list has at least a given length. -/
def hasLength {α : Type} : Nat → List α → Bool
  | 0, _ => true
  | _ + 1, [] => false
  | n + 1, _ :: rest => hasLength n rest

/-- How the characters of a text are encoded. -/
inductive Encoding where
  | utf8
  | utf16 (littleEndian : Bool)
  deriving DecidableEq, Repr

/-- The encoding of a text and the length of the byte order mark that says so. -/
def encodingOf : Text → Encoding × Nat
  | 0xFF :: 0xFE :: _ => (.utf16 true, 2)
  | 0xFE :: 0xFF :: _ => (.utf16 false, 2)
  | 0xEF :: 0xBB :: 0xBF :: _ => (.utf8, 3)
  | _ => (.utf8, 0)

/-- What stands at the front of some bytes. -/
inductive Front where
  | char (c : Char) (width : Nat)
  /-- More bytes are needed. -/
  | cut (p : Problem)
  | malformed (p : Problem)
  deriving DecidableEq, Repr

/-- The number of bytes of a UTF-8 character that starts with a given byte. -/
def width? (b : UInt8) : Option Nat :=
  if b < 0x80 then some 1
  else if b < 0xC0 then none
  else if b < 0xE0 then some 2
  else if b < 0xF0 then some 3
  else if b < 0xF8 then some 4
  else none

/-- What is wrong with bytes that are as many as a UTF-8 character should have, but are none. -/
def utf8Problem (bytes : Text) : Problem :=
  if !bytes.tail.all Text.isTail then .trailingByte
  else
    match bytes with
    | [_, _] => .longForm
    | [a, b, _] => if a = 0xE0 && b < 0xA0 then .longForm else .noCharacter
    | a :: b :: _ => if a = 0xF0 && b < 0x90 then .longForm else .noCharacter
    | _ => .noCharacter

/-- What stands at the front of bytes in UTF-8. -/
def utf8Front : Text → Front
  | [] => .cut .cutCharacter
  | b :: rest =>
    match width? b with
    | none => .malformed .leadingByte
    | some width =>
      if !hasLength width (b :: rest) then .cut .cutCharacter
      else
        match Text.leading? (b :: rest) with
        | some (c, width) => .char c width
        | none => .malformed (utf8Problem ((b :: rest).take width))

/-- The 16-bit unit of two bytes. -/
def unit (littleEndian : Bool) (a b : UInt8) : Nat :=
  if littleEndian then b.toNat * 256 + a.toNat else a.toNat * 256 + b.toNat

/-- Whether a unit is the first of a pair. -/
def isHighUnit (n : Nat) : Bool := 0xD800 ≤ n && n < 0xDC00

/-- Whether a unit is the second of a pair. -/
def isLowUnit (n : Nat) : Bool := 0xDC00 ≤ n && n < 0xE000

/-- What stands at the front of bytes in UTF-16. -/
def utf16Front (littleEndian : Bool) : Text → Front
  | a :: b :: rest =>
    let first := unit littleEndian a b
    if isLowUnit first then .malformed .lowUnitFirst
    else if isHighUnit first then
      match rest with
      | c :: d :: _ =>
        let second := unit littleEndian c d
        if isLowUnit second then
          .char (Char.ofNat (0x10000 + first % 0x400 * 0x400 + second % 0x400)) 4
        else .malformed .lowUnitMissing
      | _ => .cut .cutPair
    else .char (Char.ofNat first) 2
  | _ => .cut .cutUnit

/-- What stands at the front of some bytes. -/
def front : Encoding → Text → Front
  | .utf8, t => utf8Front t
  | .utf16 littleEndian, t => utf16Front littleEndian t

/-- What is left at the end of a block: bytes that belong to no whole character, and the problem if
the text ends with them. -/
abbrev Remainder := Option (Problem × Text)

/-- The characters of a block, of which the first `skip` bytes are already read, and what is left at
its end; or a problem in the block. -/
def decodeFrom (e : Encoding) : (skip : Nat) → Text → Except Problem (List Char × Remainder)
  | _, [] => return ([], none)
  | skip + 1, _ :: rest => decodeFrom e skip rest
  | 0, b :: rest =>
    match front e (b :: rest) with
    | .cut p => return ([], some (p, b :: rest))
    | .malformed p => throw p
    | .char c width => do
      if !isAllowed c then throw .control
      let (chars, left) ← decodeFrom e (width - 1) rest
      return (c :: chars, left)

/-- The number of bytes that are taken at a time. -/
def blockSize : Nat := 512

/-- The characters of the well-formed blocks at the front of a text, and the problem behind them if
they are not the whole text.  The first block has `room` bytes. -/
def blocksFrom (e : Encoding) : (fuel room : Nat) → Text → List (List Char) × Option Problem
  | _, _, [] => ([], none)
  | 0, _, _ :: _ => ([], some .unfinished)
  | fuel + 1, room, t =>
    match decodeFrom e 0 (t.take room) with
    | .error p => ([], some p)
    | .ok ([], left) => ([], left.map (·.1))
    | .ok (chars, left) =>
      let rest := (left.map (·.2)).getD [] ++ t.drop room
      let (others, problem) := blocksFrom e fuel blockSize rest
      (chars :: others, problem)

/-! ## Cursors -/

/-- A place in a text. -/
structure Cursor where
  /-- The decoded characters behind the place. -/
  ahead : List Char
  /-- The blocks behind them. -/
  later : List (List Char)
  /-- What is wrong behind the blocks, if the text does not end there. -/
  problem : Option Problem
  /-- A bound on the number of characters of the text. -/
  size : Nat
  /-- Whether the characters that were decoded last start with a byte order mark. -/
  marked : Bool := false
  /-- The number of characters before the place. -/
  index : Nat := 0
  line : Nat := 0
  column : Nat := 0
  /-- The number of line ends since the last character that is not blank. -/
  breaks : Nat := 0
  deriving DecidableEq, Repr

/-- A computation that moves a cursor and can fail. -/
abbrev Scan := StateT Cursor (Except Malformation)

namespace Cursor

/-- The beginning of a text. -/
def ofText (t : Text) : Cursor :=
  let (encoding, mark) := encodingOf t
  let (blocks, problem) := blocksFrom encoding (t.length + 1) (blockSize - mark) (t.drop mark)
  { ahead := [], later := blocks, problem := problem, size := t.length + 8 }

/-- At least `n` characters, or all up to the end of the text and its mark; and the blocks behind
them. -/
def gather (problem : Option Problem) (n : Nat) : (ahead : List Char) →
    (later : List (List Char)) → Except Problem (List Char × List (List Char))
  | ahead, [] =>
    if hasLength n ahead then .ok (ahead, [])
    else
      match problem with
      | none => .ok (ahead ++ [endOfText], [])
      | some p => .error p
  | ahead, block :: later =>
    if hasLength n ahead then .ok (ahead, block :: later)
    else gather problem n (ahead ++ block) later

/-- The cursor with at least `n` characters decoded. -/
def need (n : Nat) (c : Cursor) : Except Problem Cursor :=
  if hasLength n c.ahead then .ok c
  else do
    let (ahead, later) ← gather c.problem n c.ahead c.later
    return { c with
      ahead := ahead
      later := later
      marked := ahead.head? == some byteOrderMark }

/-- The cursor behind the next character. -/
def step (c : Cursor) : Cursor :=
  { c with
    ahead := c.ahead.tail
    index := c.index + 1
    column := c.column + 1
    breaks := if (c.ahead.head?.any isBlank) then c.breaks else 0 }

/-- The cursor behind the next line end, which may be two characters long. -/
def stepLine (c : Cursor) : Cursor :=
  let below : Cursor := { c with line := c.line + 1, column := 0, breaks := c.breaks + 1 }
  match c.ahead with
  | '\r' :: '\n' :: rest => { below with ahead := rest, index := c.index + 2 }
  | b :: rest => if isBreak b then { below with ahead := rest, index := c.index + 1 } else c
  | [] => c

end Cursor

/-! ## Moves -/

namespace Scan

/-- Fails with a problem.  The message names the line `line`, on which something started, or the
line of the cursor, if these are not the first line. -/
def fail {α : Type} (line : Nat) (p : Problem) : Scan α := fun c =>
  .error ⟨if line ≠ 0 then line + 1 else if c.line ≠ 0 then c.line + 1 else 0, p⟩

/-- Fails because a loop took longer than its bound. -/
def unfinished {α : Type} : Scan α := fun _ => .error ⟨0, .unfinished⟩

/-- Makes sure that at least `n` characters are decoded. -/
def need (n : Nat) : Scan Unit := fun c =>
  match c.need n with
  | .ok c => .ok ((), c)
  | .error p => .error ⟨0, p⟩

/-- The character `k` places behind the cursor. -/
def peekAt (k : Nat) : Scan Char := do return (← get).ahead.getD k endOfText

/-- The character behind the cursor. -/
def peek : Scan Char := peekAt 0

/-- Moves over a character. -/
def skip : Scan Unit := modify Cursor.step

/-- Moves over a line end. -/
def skipLine : Scan Unit := modify Cursor.stepLine

/-- Moves over a line end and gives what it stands for: line feed and carriage return, alone or
together, and next line are line feeds, the separators stand for themselves. -/
def takeLine : Scan Char := do
  let c ← peek
  skipLine
  return if c == '\u2028' || c == '\u2029' then c else '\n'

/-- Moves over the characters of a class and gives them.  The last argument holds those already
read, the last first. -/
def takeWhile (p : Char → Bool) : (fuel : Nat) → List Char → Scan (List Char)
  | 0, _ => unfinished
  | fuel + 1, seen => do
    let c ← peek
    if p c then
      skip
      need 1
      takeWhile p fuel (c :: seen)
    else return seen.reverse

/-- Moves over the characters of a class and gives them. -/
def span (p : Char → Bool) : Scan (List Char) := do
  need 1
  takeWhile p (← get).size []

/-- Moves over blanks. -/
def skipBlanks : Scan Unit := do
  let _ ← span isBlank

/-- Whether the cursor is at the mark of a document's start or end. -/
def atDocumentMark : Scan Bool := do
  let mark := [← peekAt 0, ← peekAt 1, ← peekAt 2]
  return (← get).column == 0 && (mark == ['-', '-', '-'] || mark == ['.', '.', '.'])
    && isWordEnd (← peekAt 3)

end Scan

end RobotMaze.Yaml

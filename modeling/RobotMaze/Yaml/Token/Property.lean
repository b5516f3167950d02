import RobotMaze.Yaml.Token
import RobotMaze.Yaml.Token.Scalar

/-!
# Properties and directives

Anchors, aliases and tags stand before or instead of a node; directives stand before a document.
-/

namespace RobotMaze.Yaml.Scan

/-- The bytes of some characters. -/
def bytes (cs : List Char) : Text := cs.flatMap Text.ofChar

/-! ## Anchors -/

/-- The marks that may follow the name of an anchor. -/
def nameEnds : List Char := ['?', ':', ',', ']', '\x7d', '%', '@', '\x60']

/-- The name of an anchor or an alias, behind its mark. -/
def anchorName : Scan Text := do
  let start := (← get).line
  skip
  let name ← span isNameChar
  let c ← peek
  if name.isEmpty || !(isWordEnd c || nameEnds.contains c) then fail start .noAnchorName
  return bytes name

/-! ## Tags -/

/-- Whether a character may stand in a tag. -/
def isTagChar (c : Char) : Bool :=
  isNameChar c || [';', '/', '?', ':', '@', '&', '=', '+', '$', '.', '%', '!', '~', '*', '\'', '(',
    ')', ',', '[', ']'].contains c

/-- The byte that a percent sign and two hexadecimal digits stand for, in a tag on the line `start`.
-/
def percentByte (start : Nat) : Scan UInt8 := do
  need 3
  match ← peek, hexDigit? (← peekAt 1), hexDigit? (← peekAt 2) with
  | '%', some a, some b =>
    skipMany 3
    return (a * 16 + b).toUInt8
  | _, _, _ => fail start .noPercentByte

/-- Some bytes that follow the first of a character, each with a percent sign. -/
def percentTail (start : Nat) : (count : Nat) → Text → Scan Text
  | 0, seen => return seen
  | count + 1, seen => do
    let b ← percentByte start
    if 0x80 ≤ b && b < 0xC0 then percentTail start count (b :: seen)
    else fail start .wrongTrailingPercent

/-- The bytes of a tag, the last first, behind those already read. -/
def tagBytes (start : Nat) : (fuel : Nat) → Text → Scan Text
  | 0, _ => unfinished
  | fuel + 1, seen => do
    let c ← peek
    if c == '%' then
      let b ← percentByte start
      match width? b with
      | some width =>
        let seen ← percentTail start (width - 1) (b :: seen)
        need 1
        tagBytes start fuel seen
      | none => fail start .wrongLeadingPercent
    else if isTagChar c then
      skip
      need 1
      tagBytes start fuel ((Text.ofChar c).reverse ++ seen)
    else return seen

/-- The rest of a tag behind a part that is already read; together they are not empty, where
`started` says whether there was anything before the part. -/
def tagRest (start : Nat) (started : Bool) (part : Text) : Scan Text := do
  need 1
  let all := (← tagBytes start (← get).size part.reverse).reverse
  if !started && all.isEmpty then fail start .noTag
  return all

/-- The handle at the front of a tag: an exclamation mark, and perhaps a name and a second mark. -/
def tagHandle (start : Nat) : Scan Text := do
  need 1
  if (← peek) != '!' then fail start .noTagMark
  skip
  let name ← span isNameChar
  if (← peek) == '!' then
    skip
    return bytes ('!' :: name ++ ['!'])
  else return bytes ('!' :: name)

/-- Whether a handle has its second mark. -/
def isWholeHandle (handle : Text) : Bool := 1 < handle.length && handle.getLast? == some 33

/-- A tag as its handle and what stands behind it. -/
def tagParts (start : Nat) : Scan (Text × Text) := do
  need 2
  if (← peekAt 1) == '<' then
    skipMany 2
    let name ← tagRest start false []
    if (← peek) != '>' then fail start .noTagEnd
    skip
    return ([], name)
  else
    let handle ← tagHandle start
    if isWholeHandle handle then return (handle, ← tagRest start false [])
    else
      let suffix ← tagRest start true handle.tail
      return if suffix.isEmpty then ([], handle) else ([33], suffix)

/-- A tag as its handle and what stands behind it; a word ends there. -/
def tag : Scan (Text × Text) := do
  let start := (← get).line
  let parts ← tagParts start
  need 1
  if !isWordEnd (← peek) then fail start .noWordEnd
  return parts

/-! ## Directives -/

/-- A number of one or two digits in the version of the language. -/
def versionNumber (start : Nat) : Scan Nat := do
  let digits ← span Char.isDigit
  if digits.isEmpty then fail start .noVersion
  if 2 < digits.length then fail start .longVersion
  return digits.foldl (fun n c => n * 10 + (c.toNat - 48)) 0

/-- The version of the language. -/
def version (start : Nat) : Scan Lexeme := do
  skipBlanks
  let major ← versionNumber start
  if (← peek) != '.' then fail start .noVersionPoint
  skip
  return .version major (← versionNumber start)

/-- A handle for tags and what it stands for. -/
def handleMeaning (start : Nat) : Scan Lexeme := do
  skipBlanks
  let handle ← tagHandle start
  if !(isWholeHandle handle || handle == [33]) then fail start .noTagMark
  need 1
  if !isBlank (← peek) then fail start .noBlank
  skipBlanks
  let meaning ← tagRest start false []
  need 1
  if !isWordEnd (← peek) then fail start .noWordEnd
  return .tagHandle handle meaning

/-- A directive up to the end of its line. -/
def directive : Scan Lexeme := do
  let start := (← get).line
  skip
  let name ← span isNameChar
  if name.isEmpty then fail start .noDirectiveName
  if !isWordEnd (← peek) then fail start .directiveNameEnd
  let lexeme ←
    if name == ['Y', 'A', 'M', 'L'] then version start
    else if name == ['T', 'A', 'G'] then handleMeaning start
    else fail start .unknownDirective
  skipBlanks
  if (← peek) == '#' then
    let _ ← span fun c => !isLineEnd c
  if !isLineEnd (← peek) then fail start .noLineEnd
  if isBreak (← peek) then
    need 2
    skipLine
  return lexeme

end RobotMaze.Yaml.Scan

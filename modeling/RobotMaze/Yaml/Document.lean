import RobotMaze.Yaml.Node
import RobotMaze.Yaml.Token.Stream
import RobotMaze.Yaml.Value

/-!
# YAML documents

The grammar of documents over their tokens.  `Yaml.parse` reads the first document of a text.  What
follows a document is not read beyond the tokens that are read in advance.
-/

namespace RobotMaze.Yaml

/-- How reading a text fails or ends. -/
inductive Reading where
  | malformed (m : Malformation)
  /-- The text has no document. -/
  | empty
  | document (d : Document)
  deriving Repr

/-- What is known while a document is read. -/
structure Names where
  /-- The handles of tags and what they stand for. -/
  handles : List (Text × Text) := []
  /-- The numbers of anchors by their names, the last one first. -/
  anchors : List (Text × Nat) := []
  /-- The nodes with anchors; a node is missing as long as it is not read to its end. -/
  anchored : List (Option Node) := []
  /-- The number of aliases so far. -/
  aliases : Nat := 0
  deriving Repr

/-- A computation that builds nodes. -/
abbrev Build := StateT Names Tokens

namespace Build

/-- The next token. -/
def peek : Build Token := StateT.lift Tokens.peek

/-- Uses the next token. -/
def drop : Build Unit := StateT.lift Tokens.drop

/-- Fails with a problem.  The message names the line before `start`, on which something started, or
the line before `found`, on which the problem is, if these are not the first line. -/
def fail {α : Type} (start found : Nat) (p : Problem) : Build α :=
  StateT.lift fun _ => .error ⟨if start ≠ 0 then start else found, p⟩

/-- Fails because a loop took longer than its bound. -/
def unfinished {α : Type} : Build α := fail 0 0 .unfinished

/-! ## Properties -/

/-- The properties before a node. -/
structure Properties where
  /-- The line of the first of them. -/
  line : Option Nat := none
  anchor : Option Text := none
  /-- The line of the tag, its handle and what stands behind it. -/
  tag : Option (Nat × Text × Text) := none
  deriving DecidableEq, Repr

/-- The properties before a node: an anchor and a tag in any order, or one of them. -/
def properties : Build Properties := do
  let first ← peek
  match first.lexeme with
  | .anchor name =>
    drop
    let second ← peek
    match second.lexeme with
    | .tag handle suffix =>
      drop
      return ⟨some first.line, some name, some (second.line, handle, suffix)⟩
    | _ => return ⟨some first.line, some name, none⟩
  | .tag handle suffix =>
    drop
    match (← peek).lexeme with
    | .anchor name =>
      drop
      return ⟨some first.line, some name, some (first.line, handle, suffix)⟩
    | _ => return ⟨some first.line, none, some (first.line, handle, suffix)⟩
  | _ => return {}

/-- The tag that is given to a node. -/
def tagOf (p : Properties) : Build (Option Text) := do
  match p.tag with
  | none => return none
  | some (_, [], suffix) => return some suffix
  | some (line, handle, suffix) =>
    match (← get).handles.lookup handle with
    | some meaning => return some (meaning ++ suffix)
    | none => fail (p.line.getD 0) line .unknownHandle

/-- The tag of a node by the tag that is given to it; the tag `!` says nothing. -/
def tagFrom (given : Option Text) (default : Tag) : Tag :=
  match given with
  | some name => if name = [33] then default else .ofText name
  | none => default

/-- The tag of a scalar without one. -/
def scalarTag (plain : Bool) (value : Text) : Tag :=
  if !plain then .string
  else if value = "<<" then .merge
  else (Value.ofSpelling true value).tag

/-- Gives a number to the anchor of a node that starts here. -/
def announce (anchor : Option Text) : Build (Option Nat) := do
  match anchor with
  | none => return none
  | some name =>
    let s ← get
    let number := s.anchored.length
    set { s with
      anchors := (name, number) :: s.anchors
      anchored := s.anchored ++ [none] }
    return some number

/-- Keeps the node with an anchor. -/
def keep (number : Option Nat) (n : Node) : Build Node := do
  match number with
  | none => return n
  | some k =>
    modify fun s => { s with anchored := s.anchored.set k (some n) }
    return n

/-- The alias with a name. -/
def aliasNamed (line : Nat) (name : Text) : Build Node := do
  let s ← get
  match s.anchors.lookup name with
  | some target =>
    set { s with aliases := s.aliases + 1 }
    return .reference (line + 1) name s.aliases target
  | none => fail 0 0 (.unknownAnchor name)

/-- The null node of a line. -/
def emptyAt (line : Nat) : Node := .scalar (line + 1) .null []

/-- Whether a token ends an entry of a block mapping. -/
def endsEntry : Lexeme → Bool
  | .key | .value | .blockEnd => true
  | _ => false

/-- Whether a token ends an item of a block sequence. -/
def endsItem : Lexeme → Bool
  | .blockEntry | .blockEnd => true
  | _ => false

/-- Whether a token ends an entry between brackets that close with `close`. -/
def endsFlow (close : Lexeme) (l : Lexeme) : Bool := l = .flowEntry || l = close

/-! ## Nodes -/

mutual

/-- A node.  `block` says whether a block may stand here, `flat` whether a sequence may stand here
whose items are not indented. -/
def node : (fuel : Nat) → (block flat : Bool) → Build Node
  | 0, _, _ => unfinished
  | fuel + 1, block, flat => do
    let first ← peek
    match first.lexeme with
    | .reference name =>
      let n ← aliasNamed first.line name
      drop
      return n
    | _ =>
      let p ← properties
      let given ← tagOf p
      let t ← peek
      let line := p.line.getD t.line
      match t.lexeme with
      | .scalar plain value =>
        let number ← announce p.anchor
        drop
        keep number (.scalar (line + 1) (tagFrom given (scalarTag plain value)) value)
      | .flowSequenceStart =>
        let number ← announce p.anchor
        drop
        let items ← flowItems fuel t.line true
        keep number (.sequence (line + 1) (tagFrom given .sequence) items)
      | .flowMappingStart =>
        let number ← announce p.anchor
        drop
        let entries ← flowEntries fuel t.line true
        keep number (.mapping (line + 1) (tagFrom given .mapping) entries)
      | lexeme =>
        if flat && lexeme = .blockEntry then
          let number ← announce p.anchor
          let items ← flatItems fuel
          keep number (.sequence (line + 1) (tagFrom given .sequence) items)
        else if block && lexeme = .blockSequenceStart then
          let number ← announce p.anchor
          drop
          let items ← blockItems fuel t.line
          keep number (.sequence (line + 1) (tagFrom given .sequence) items)
        else if block && lexeme = .blockMappingStart then
          let number ← announce p.anchor
          drop
          let entries ← blockEntries fuel t.line
          keep number (.mapping (line + 1) (tagFrom given .mapping) entries)
        else if p.anchor.isSome || given.isSome then
          let number ← announce p.anchor
          keep number (.scalar (line + 1) (tagFrom given .null) [])
        else fail line t.line .noContent
termination_by structural fuel => fuel

/-- The items of a block sequence that starts on the line `start`, up to its end. -/
def blockItems : (fuel start : Nat) → Build (List Node)
  | 0, _ => unfinished
  | fuel + 1, start => do
    let t ← peek
    match t.lexeme with
    | .blockEntry =>
      drop
      let item ← if endsItem (← peek).lexeme then pure (emptyAt t.line) else node fuel true false
      return item :: (← blockItems fuel start)
    | .blockEnd =>
      drop
      return []
    | _ => fail start t.line .noItem
termination_by structural fuel => fuel

/-- The items of a sequence that is not indented. -/
def flatItems : (fuel : Nat) → Build (List Node)
  | 0 => unfinished
  | fuel + 1 => do
    let t ← peek
    match t.lexeme with
    | .blockEntry =>
      drop
      let next := (← peek).lexeme
      let item ←
        if endsItem next || endsEntry next then pure (emptyAt t.line) else node fuel true false
      return item :: (← flatItems fuel)
    | _ => return []
termination_by structural fuel => fuel

/-- The entries of a block mapping that starts on the line `start`, up to its end. -/
def blockEntries : (fuel start : Nat) → Build (List (Node × Node))
  | 0, _ => unfinished
  | fuel + 1, start => do
    let t ← peek
    match t.lexeme with
    | .key =>
      drop
      let key ← if endsEntry (← peek).lexeme then pure (emptyAt t.line) else node fuel true true
      let value ← blockValue fuel
      return (key, value) :: (← blockEntries fuel start)
    | .blockEnd =>
      drop
      return []
    | _ => fail start t.line .noKey
termination_by structural fuel => fuel

/-- The value of an entry of a block mapping. -/
def blockValue : (fuel : Nat) → Build Node
  | 0 => unfinished
  | fuel + 1 => do
    let t ← peek
    match t.lexeme with
    | .value =>
      drop
      if endsEntry (← peek).lexeme then return emptyAt t.line else node fuel true true
    | _ => return emptyAt t.line
termination_by structural fuel => fuel

/-- The items between square brackets, of which the first stands on the line `start`, up to the
closing one.  A key with a value is a mapping of its own. -/
def flowItems : (fuel start : Nat) → (first : Bool) → Build (List Node)
  | 0, _, _ => unfinished
  | fuel + 1, start, first => do
    let t ← peek
    if t.lexeme = .flowSequenceEnd then
      drop
      return []
    if !first then
      if t.lexeme = .flowEntry then drop else fail start t.line .noCommaInSequence
    let t ← peek
    match t.lexeme with
    | .key =>
      drop
      let entry ← flowPair fuel
      return .mapping (t.line + 1) .mapping [entry] :: (← flowItems fuel start false)
    | .flowSequenceEnd =>
      drop
      return []
    | _ =>
      let item ← node fuel false false
      return item :: (← flowItems fuel start false)
termination_by structural fuel => fuel

/-- The key and the value of an item between square brackets. -/
def flowPair : (fuel : Nat) → Build (Node × Node)
  | 0 => unfinished
  | fuel + 1 => do
    let t ← peek
    let key ←
      if t.lexeme = .value || endsFlow .flowSequenceEnd t.lexeme then
        drop
        pure (emptyAt t.line)
      else node fuel false false
    let value ← flowValue fuel .flowSequenceEnd
    let _ ← peek
    return (key, value)
termination_by structural fuel => fuel

/-- The value of an entry between brackets that close with `close`. -/
def flowValue : (fuel : Nat) → (close : Lexeme) → Build Node
  | 0, _ => unfinished
  | fuel + 1, close => do
    let t ← peek
    if t.lexeme = .value then
      drop
      let next ← peek
      if endsFlow close next.lexeme then return emptyAt next.line else node fuel false false
    else return emptyAt t.line
termination_by structural fuel => fuel

/-- The entries between curly brackets, of which the first stands on the line `start`, up to the
closing one. -/
def flowEntries : (fuel start : Nat) → (first : Bool) → Build (List (Node × Node))
  | 0, _, _ => unfinished
  | fuel + 1, start, first => do
    let t ← peek
    if t.lexeme = .flowMappingEnd then
      drop
      return []
    if !first then
      if t.lexeme = .flowEntry then drop else fail start t.line .noCommaInMapping
    match (← peek).lexeme with
    | .key =>
      drop
      let t ← peek
      let key ←
        if t.lexeme = .value || endsFlow .flowMappingEnd t.lexeme then pure (emptyAt t.line)
        else node fuel false false
      let value ← flowValue fuel .flowMappingEnd
      return (key, value) :: (← flowEntries fuel start false)
    | .flowMappingEnd =>
      drop
      return []
    | _ =>
      let key ← node fuel false false
      let t ← peek
      return (key, emptyAt t.line) :: (← flowEntries fuel start false)
termination_by structural fuel => fuel

end

/-! ## Documents -/

/-- The handles that every document has. -/
def commonHandles : List (Text × Text) := [("!", "!"), ("!!", Tag.common)]

/-- Reads the directives before a document: at most one version, which is 1.1, and handles, each at
most once. -/
def directives (versioned : Bool) : (fuel : Nat) → Build Unit
  | 0 => unfinished
  | fuel + 1 => do
    let t ← peek
    match t.lexeme with
    | .version major minor =>
      if versioned then fail 0 t.line .repeatedVersion
      if major != 1 || minor != 1 then fail 0 t.line .otherVersion
      drop
      directives true fuel
    | .tagHandle handle meaning =>
      let s ← get
      if (s.handles.lookup handle).isSome then fail 0 t.line .repeatedHandle
      set { s with handles := s.handles ++ [(handle, meaning)] }
      drop
      directives versioned fuel
    | _ => modify fun s => { s with handles := s.handles ++ commonHandles }

/-- Whether a token stands before or after a document. -/
def isOutside : Lexeme → Bool
  | .version _ _ | .tagHandle _ _ | .documentStart | .documentEnd | .streamEnd => true
  | _ => false

/-- The root of the first document; there is none in a text without a document. -/
def document (fuel : Nat) : Build (Option Node) := do
  let _ ← peek
  drop
  match (← peek).lexeme with
  | .streamEnd => return none
  | .version _ _ | .tagHandle _ _ | .documentStart =>
    directives false fuel
    let t ← peek
    if t.lexeme != .documentStart then fail 0 t.line .noDocumentStart
    drop
    let t ← peek
    let root ← if isOutside t.lexeme then pure (emptyAt t.line) else node fuel true false
    let _ ← peek
    return some root
  | _ =>
    modify fun s => { s with handles := commonHandles }
    let root ← node fuel true false
    let _ ← peek
    return some root

end Build

/-- Reads the first document of a text. -/
def parse (t : Text) : Reading :=
  match (Build.document (16 * t.length + 64)).run {} (Stream.ofText t) with
  | .error m => .malformed m
  | .ok ((none, _), _) => .empty
  | .ok ((some root, names), _) => .document ⟨root, names.anchored.map (·.getD default)⟩

end RobotMaze.Yaml

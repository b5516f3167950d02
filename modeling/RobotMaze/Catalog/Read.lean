import RobotMaze.Catalog.Basic
import RobotMaze.Yaml.Document

/-!
# Reading catalogs

A catalog is written as a YAML document.  All mismatches between the document and the shape of a
catalog are collected in the order of the document before reading fails.
-/

namespace RobotMaze

namespace CatalogDocument

/-- The parts of a catalog that nodes are read as. -/
inductive Target where
  | catalog
  | presets
  | preset
  | variants
  | variant
  | ints
  | strings
  | int
  | string
  deriving DecidableEq, Repr

/-- A place where a document does not have the shape of a catalog. -/
inductive Mismatch where
  /-- A node is not what it is read as; `value` is the text of a scalar. -/
  | wrongTag (line : Nat) (tag : Yaml.Tag) (value : Text) (target : Target)
  | unknownField (line : Nat) (name : Text) (target : Target)
  /-- A field has its value already, under another spelling of its name. -/
  | fieldTwice (line : Nat) (name : Text) (target : Target)
  | repeatedKey (line : Nat) (key : Text) (first : Nat)
  deriving DecidableEq, Repr

end CatalogDocument

/-- Why a text is no catalog. -/
inductive CatalogError where
  | malformed (m : Yaml.Malformation)
  | empty
  | mismatched (mismatches : List CatalogDocument.Mismatch)
  | noPresets
  | noVariants (id : Text)
  deriving DecidableEq, Repr

namespace CatalogDocument

/-! ## Wording -/

/-- The name of a part in messages. -/
def Target.text : Target → Text
  | .catalog => "maze.catalogFile"
  | .presets => "map[string]maze.Preset"
  | .preset => "maze.Preset"
  | .variants => "[]maze.Variant"
  | .variant => "maze.Variant"
  | .ints => "[]int"
  | .strings => "[]string"
  | .int => "int"
  | .string => "string"

/-- The text of a scalar in messages: between marks, and only its beginning if it is long.  A scalar
with the tag of a sequence or a mapping has no marks. -/
def shown (tag : Yaml.Tag) (t : Text) : Text :=
  if tag = .sequence || tag = .mapping then t
  else if t.length > 10 then " `" ++ t.take 7 ++ "...`"
  else " `" ++ t ++ "`"

/-- The wording of a mismatch. -/
def Mismatch.message : Mismatch → Text
  | .wrongTag line tag value target =>
    "line " ++ Text.ofNat line ++ ": cannot unmarshal " ++ tag.text ++ shown tag value ++ " into "
      ++ target.text
  | .unknownField line name target =>
    "line " ++ Text.ofNat line ++ ": field " ++ name ++ " not found in type " ++ target.text
  | .fieldTwice line name target =>
    "line " ++ Text.ofNat line ++ ": field " ++ name ++ " already set in type " ++ target.text
  | .repeatedKey line key first =>
    "line " ++ Text.ofNat line ++ ": mapping key " ++ Text.quoted key ++ " already defined at line "
      ++ Text.ofNat first

/-! ## Reading nodes -/

/-- What is known of a document while it is read. -/
structure Tally where
  /-- The mismatches so far. -/
  mismatches : List Mismatch := []
  /-- The number of nodes read so far. -/
  nodes : Nat := 0
  /-- The number of those that were read for an alias. -/
  aliased : Nat := 0
  deriving DecidableEq, Repr

/-- The nodes that aliases stand for, and the numbers of the aliases that are being read. -/
structure Scope where
  anchored : List Yaml.Node
  /-- A bound on the depth to which mappings are merged. -/
  depth : Nat
  active : List Nat := []
  deriving Repr

/-- A computation that collects mismatches, and fails if the document is malformed.  What reads a
node as an optional value has none for a null node, or for a node with a mismatch. -/
abbrev Collect := ReaderT Scope (StateT Tally (Except Yaml.Problem))

/-- Collects a mismatch. -/
def collect (m : Mismatch) : Collect Unit :=
  modify fun t => { t with mismatches := t.mismatches ++ [m] }

/-- Whether nearly all nodes were read for aliases.  Aliases may be 99 percent of up to 400 000
nodes, and ever fewer beyond, down to 10 percent of 4 000 000. -/
def Tally.isExcessive (t : Tally) : Bool :=
  100 < t.aliased && 1000 < t.nodes &&
    if t.nodes ≤ 400000 then 99 * t.nodes < 100 * t.aliased
    else if 4000000 ≤ t.nodes then t.nodes < 10 * t.aliased
    else
      (99 * 3600000 - 89 * (t.nodes - 400000)) * t.nodes < 100 * 3600000 * t.aliased

/-- Counts a node. -/
def count : Collect Unit := do
  let inAlias := !(← read).active.isEmpty
  modify fun t => { t with
    nodes := t.nodes + 1
    aliased := if inAlias then t.aliased + 1 else t.aliased }
  if (← get).isExcessive then throw .tooManyAliases

/-- Reads a node, or the node that an alias stands for.  No alias stands for a node around it. -/
def visit {α : Type} (reader : Yaml.Node → Collect α) (n : Yaml.Node) : Collect α := do
  count
  match n with
  | .reference _ name number target =>
    let scope ← read
    if scope.active.contains number then throw (.cyclicAlias name)
    withReader (fun scope => { scope with active := number :: scope.active }) do
      count
      reader (scope.anchored.getD target default)
  | _ => reader n

/-! ## Scalars -/

/-- The value of a scalar; a document with a scalar that has none is malformed. -/
def valueOf (tag : Yaml.Tag) (t : Text) : Collect Yaml.Value :=
  match Yaml.Value.ofTagged tag t with
  | .ok value => pure value
  | .error p => throw p

/-- Whether two keys are the same key: they are of one kind and have the same text. -/
def sameKey (a b : Yaml.Node) : Bool :=
  match a, b with
  | .scalar _ _ x, .scalar _ _ y => x == y
  | .reference _ x _ _, .reference _ y _ _ => x == y
  | .sequence _ _ _, .sequence _ _ _ => true
  | .mapping _ _ _, .mapping _ _ _ => true
  | _, _ => false

/-- The mismatches of keys that occur more than once. -/
def repeatedKeys : List Yaml.Node → List Mismatch
  | [] => []
  | k :: rest =>
    ((rest.filter (sameKey k)).map fun later => .repeatedKey later.line later.text k.line)
      ++ repeatedKeys rest

/-- The node is not what it is read as, unless it is null.  A mapping with repeated keys is refused
for those. -/
def wrongTag {α : Type} (target : Target) (n : Yaml.Node) : Collect (Option α) := do
  match n with
  | .scalar line tag t =>
    if (← valueOf tag t) != .null then collect (.wrongTag line tag t target)
  | .sequence line tag _ => collect (.wrongTag line tag [] target)
  | .mapping line tag entries =>
    match repeatedKeys (entries.map (·.1)) with
    | [] => collect (.wrongTag line tag [] target)
    | repeated => repeated.forM collect
  | .reference _ _ _ _ => return none
  return none

/-- Reads a text: any scalar but null. -/
def readText : Yaml.Node → Collect (Option Text) :=
  visit fun n => do
    match n with
    | .scalar _ tag t =>
      match ← valueOf tag t with
      | .null => return none
      | .text value => return some value
      | _ => return some t
    | _ => wrongTag .string n

/-- Reads an integer. -/
def readInt : Yaml.Node → Collect (Option Int) :=
  visit fun n => do
    match n with
    | .scalar _ tag t =>
      match (← valueOf tag t).toInt? with
      | some i => return some i
      | none => wrongTag .int n
    | _ => wrongTag .int n

/-! ## Sequences -/

/-- Reads the items one after another; those without a value are left out. -/
def readItems {α : Type} (item : Yaml.Node → Collect (Option α)) :
    List Yaml.Node → Collect (List α)
  | [] => pure []
  | n :: rest => do
    let first ← item n
    let others ← readItems item rest
    return first.toList ++ others

/-- Reads a sequence. -/
def readList {α : Type} (target : Target) (item : Yaml.Node → Collect (Option α)) :
    Yaml.Node → Collect (Option (List α)) :=
  visit fun n => do
    match n with
    | .sequence _ _ items => return some (← readItems item items)
    | _ => wrongTag target n

/-! ## Mappings -/

/-- Whether an entry with this key holds mappings whose entries belong to the mapping around it. -/
def isMerge : Yaml.Node → Bool
  | .scalar _ .merge value => value == "<<"
  | _ => false

/-- How the entries of a mapping are read into a value. -/
structure Shape (α : Type) where
  target : Target
  /-- Reads the entry with a key.  `again` says whether the mapping has an entry with that key
  before, and `merged` whether it is merged into another mapping. -/
  entry : (again merged : Bool) → α → (line : Nat) → (key : Text) → Yaml.Node → Collect α

/-- The keys that a merged mapping has no say in. -/
abbrev Taken := Option (List Text)

/-- Reads the entries of a mapping one after another; an entry whose key is null is left out.  The
keys that are already read are given. -/
def readEntries {α : Type} (shape : Shape α) : (value : α) → (keys : List Text) → Taken →
    List (Yaml.Node × Yaml.Node) → Collect (α × Taken)
  | value, _, taken, [] => return (value, taken)
  | value, keys, taken, (k, n) :: rest => do
    if isMerge k then readEntries shape value keys taken rest
    else
      match ← readText k with
      | none => readEntries shape value keys taken rest
      | some key =>
        if (taken.getD []).contains key then readEntries shape value keys taken rest
        else
          let value ← shape.entry (keys.contains key) taken.isSome value k.line key n
          readEntries shape value (key :: keys) (taken.map (key :: ·)) rest

/-- The text of a key, if it is one. -/
def keyText (n : Yaml.Node) : Collect (Option Text) := do
  match n with
  | .scalar _ tag t =>
    match ← valueOf tag t with
    | .text value => return some value
    | _ => return none
  | _ => return none

/-- Whether a node is a mapping, or an alias of one. -/
def isMapping (n : Yaml.Node) : Collect Bool := do
  match n with
  | .mapping _ _ _ => return true
  | .reference _ _ _ target =>
    match (← read).anchored[target]? with
    | some (.mapping _ _ _) => return true
    | _ => return false
  | _ => return false

/-- The nodes that a node merges: itself, or its items. -/
def mergedNodes (n : Yaml.Node) : List Yaml.Node :=
  match n with
  | .sequence _ _ items => items
  | _ => [n]

/-- Reads merged mappings into a value, one after another; nothing else can be merged. -/
def mergeAll {α : Type} (fill : α → Taken → Yaml.Node → Collect (Option α × Taken)) :
    (value : α) → Taken → List Yaml.Node → Collect (α × Taken)
  | value, taken, [] => return (value, taken)
  | value, taken, n :: rest => do
    if !(← isMapping n) then throw .mergeOfOther
    let (merged, taken) ← visit (fill value taken) n
    mergeAll fill (merged.getD value) taken rest

/-- Reads a mapping into a value.  Keys that occur more than once leave it without a value.  The
entries of merged mappings come last. -/
def fill {α : Type} (shape : Shape α) :
    (depth : Nat) → (value : α) → Taken → Yaml.Node → Collect (Option α × Taken)
  | 0, _, _, _ => throw .unfinished
  | depth + 1, value, taken, n => do
    match n with
    | .mapping _ _ entries =>
      match repeatedKeys (entries.map (·.1)) with
      | [] =>
        let (value, taken) ← readEntries shape value [] taken entries
        match entries.find? fun e => isMerge e.1 with
        | none => return (some value, taken)
        | some (_, source) =>
          let known ←
            match taken with
            | some keys => pure keys
            | none => readItems (visit keyText) (entries.map (·.1))
          let (value, known) ← mergeAll (fill shape depth) value (some known) (mergedNodes source)
          return (some value, taken.bind fun _ => known)
      | repeated =>
        repeated.forM collect
        return (none, taken)
    | _ => return (← wrongTag shape.target n, taken)

/-- Reads a mapping. -/
def readMapping {α : Type} (shape : Shape α) (initial : α) : Yaml.Node → Collect (Option α) :=
  visit fun n => do
    return (← fill shape (← read).depth initial none n).1

/-! ## The parts of a catalog -/

/-- The shape of a part with fields. -/
def shapeOf {α : Type} (target : Target)
    (fields : List (String × (α → Yaml.Node → Collect α))) : Shape α where
  target := target
  entry := fun again _ value line key n => do
    match fields.find? fun f => utf8 f.1 == key with
    | none =>
      collect (.unknownField line key target)
      return value
    | some (_, field) =>
      if again then
        collect (.fieldTwice line key target)
        return value
      else field value n

/-- Reads a variant. -/
def readVariant : Yaml.Node → Collect (Option Variant) :=
  let fields : List (String × (Variant → Yaml.Node → Collect Variant)) :=
    [("name", fun v n => return { v with name := (← readText n).getD [] }),
     ("facing", fun v n => return { v with facing := (← readText n).getD [] }),
     ("correct_key", fun v n => return { v with correctKey := ← readList .ints readInt n }),
     ("rows", fun v n => return { v with rows := (← readList .strings readText n).getD [] })]
  readMapping (shapeOf .variant fields) {}

/-- Reads a preset. -/
def readPreset : Yaml.Node → Collect (Option Preset) :=
  let fields : List (String × (Preset → Yaml.Node → Collect Preset)) :=
    [("name", fun p n => return { p with name := (← readText n).getD [] }),
     ("variants", fun p n =>
        return { p with variants := (← readList .variants readVariant n).getD [] })]
  readMapping (shapeOf .preset fields) {}

/-- The presets with another one under an id. -/
def setPreset (presets : List (Text × Preset)) (id : Text) (p : Preset) : List (Text × Preset) :=
  presets.filter (fun e => e.1 != id) ++ [(id, p)]

/-- Reads the presets by their ids.  A null preset is an empty one, unless it is merged into presets
that have one under its id. -/
def readPresets : Yaml.Node → Collect (Option (List (Text × Preset))) :=
  let shape : Shape (List (Text × Preset)) :=
    { target := .presets
      entry := fun _ merged presets _ id n => do
        match ← readPreset n with
        | some p => return setPreset presets id p
        | none =>
          if merged && (presets.lookup id).isSome then return presets
          else return setPreset presets id {} }
  readMapping shape []

/-- Reads a catalog. -/
def readCatalog : Yaml.Node → Collect (Option (List (Text × Preset))) :=
  let fields : List (String × (List (Text × Preset) → Yaml.Node →
      Collect (List (Text × Preset)))) :=
    [("presets", fun _ n => return (← readPresets n).getD [])]
  readMapping (shapeOf .catalog fields) []

/-- Reads a document. -/
def readDocument (depth : Nat) (d : Yaml.Document) :
    Except Yaml.Problem (List (Text × Preset) × List Mismatch) := do
  let (presets, tally) ← readCatalog d.root ⟨d.anchored, depth, []⟩ { nodes := 1 }
  return (presets.getD [], tally.mismatches)

end CatalogDocument

/-- The wording of an error. -/
def CatalogError.message : CatalogError → Text
  | .malformed m => "parse preset catalog: yaml: " ++ m.message
  | .empty => "preset catalog is empty"
  | .mismatched mismatches =>
    "parse preset catalog: yaml: unmarshal errors:"
      ++ mismatches.flatMap fun m => utf8 "\n  " ++ m.message
  | .noPresets => "preset catalog defines no presets"
  | .noVariants id => "preset " ++ Text.quoted id ++ " has no variants"

/-- The catalog that a text describes.  Its presets are checked in the byte order of their ids. -/
def Catalog.ofText (t : Text) : Except CatalogError Catalog :=
  match Yaml.parse t with
  | .malformed m => .error (.malformed m)
  | .empty => .error .empty
  | .document d =>
    match CatalogDocument.readDocument (t.length * t.length + 2) d with
    | .error p => .error (.malformed ⟨0, p⟩)
    | .ok (presets, []) =>
      let catalog := Catalog.ofPresets presets
      if catalog.presets.isEmpty then .error .noPresets
      else
        match catalog.presets.find? fun e => e.2.variants.isEmpty with
        | some e => .error (.noVariants e.1)
        | none => .ok catalog
    | .ok (_, mismatches) => .error (.mismatched mismatches)

end RobotMaze

import RobotMaze.Catalog.Dice
import RobotMaze.Maze.Load

/-!
# Catalogs

A catalog holds presets by their ids, and a preset has one or more variants, each a map.  Loading a
preset builds one of its variants: the pinned one, or one chosen by the dice.  Only an unpinned load
of a known preset throws them.
-/

namespace RobotMaze

/-- A map with its name, as it is written in a catalog. -/
structure Variant where
  name : Text := []
  facing : Text := []
  /-- The coordinates of the key that opens the door, if they are given. -/
  correctKey : Option (List Int) := none
  rows : List Text := []
  deriving DecidableEq, Repr

/-- Some maps under a common name. -/
structure Preset where
  name : Text := []
  variants : List Variant := []
  deriving DecidableEq, Repr

/-- Presets by their ids, and how their variants are chosen. -/
structure Catalog where
  /-- The presets in the byte order of their ids. -/
  presets : List (Text × Preset)
  dice : Dice := Dice.ofSeed 1
  /-- The variant to load; a negative number leaves the choice to the dice. -/
  pin : Int := -1
  deriving DecidableEq, Repr

/-- The maze of a variant. -/
def Variant.build (v : Variant) : Except (List Issue) Maze := do
  match Heading.ofName? v.facing with
  | none => throw [.unknownHeadingName v.facing]
  | some heading =>
    let correctKey ←
      match v.correctKey with
      | none => pure none
      | some [x, y] => pure (some ⟨x, y⟩)
      | some _ => throw [.malformedKey]
    let m ← Maze.ofRows v.rows heading.code.toInt correctKey
    return { m with name := v.name }

namespace Catalog

/-- The presets with one more, in the byte order of the ids. -/
def insert (id : Text) (p : Preset) : List (Text × Preset) → List (Text × Preset)
  | [] => [(id, p)]
  | e :: rest => if Text.before id e.1 then (id, p) :: e :: rest else e :: insert id p rest

/-- The catalog of some presets. -/
def ofPresets (presets : List (Text × Preset)) : Catalog :=
  { presets := presets.foldl (fun sorted (id, p) => insert id p sorted) [] }

/-- The ids of the presets in byte order. -/
def ids (c : Catalog) : List Text := c.presets.map (·.1)

/-- The preset with an id. -/
def preset? (c : Catalog) (id : Text) : Option Preset := c.presets.lookup id

/-- The catalog with its dice started again from a seed. -/
def withSeed (c : Catalog) (seed : Int) : Catalog := { c with dice := Dice.ofSeed seed }

/-- The catalog with a pinned variant. -/
def withPin (c : Catalog) (n : Int) : Catalog := { c with pin := n }

/-- The variant of a preset to load, and the catalog after it was chosen. -/
def choose (c : Catalog) (p : Preset) : Int × Catalog :=
  if c.pin < 0 then
    let (n, dice) := c.dice.below p.variants.length
    (n, { c with dice := dice })
  else
    (c.pin, c)

/-- The maze of the preset with an id, and the catalog afterwards. -/
def load (c : Catalog) (id : Text) : Except LoadError Maze × Catalog :=
  match c.preset? id with
  | none => (.error (.unknownPreset id), c)
  | some p =>
    let (n, after) := c.choose p
    match p.variants[n.toNat]? with
    | some v => (v.build.mapError .invalid, after)
    | none => (.error (.noVariant id p.variants.length n), after)

/-- The loader of a run that starts with a catalog. -/
def loader (c : Catalog) : Loader := fun n => (c.load n.word).1

end Catalog

end RobotMaze

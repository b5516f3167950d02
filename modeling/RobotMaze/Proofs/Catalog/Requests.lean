import RobotMaze.Catalog.Read
import Mathlib.Tactic.Common

/-!
# What throws the dice

A catalog is asked one thing after the other: to start its dice from a seed, to pin a variant, or to
load a preset.  Only loads that leave the choice of a variant to the dice throw them, so all other
loads can be left out, and the loads that remain give what they gave before.

* `Catalog.stocked_of_ofText` — in a catalog that is read every preset has a variant;
* `Catalog.load_of_unpinned` — an unpinned load builds the variant that the dice show;
* `Catalog.outcomes_filter` — idle loads can be left out;
* `Catalog.idle_loads_leave_no_trace` — both for catalogs that are read, after any requests.
-/

namespace RobotMaze

namespace Catalog

variable {c : Catalog} {p : Preset} {id : Text}

/-! ## Loads -/

/-- Every preset has a variant. -/
def Stocked (c : Catalog) : Prop := ∀ id p, c.preset? id = some p → 0 < p.variants.length

/-- In a catalog that is read every preset has a variant. -/
theorem stocked_of_ofText {t : Text} (h : ofText t = .ok c) : c.Stocked := by
  unfold ofText at h
  split at h
  · cases h
  · cases h
  · split at h
    · cases h
    · dsimp only at h
      split at h
      · cases h
      · split at h
        · cases h
        · next hfind =>
          cases h
          intro id p hp
          obtain ⟨before, after, hpresets, -⟩ := List.lookup_eq_some_iff.1 hp
          have hvariants := List.find?_eq_none.1 hfind (id, p) (by
            rw [hpresets]
            exact List.mem_append_right before List.mem_cons_self)
          exact List.length_pos_iff.2 (by simpa using hvariants)
    · cases h

/-- An unpinned load of a known preset builds the variant that the dice show. -/
theorem load_of_unpinned (h : c.Stocked) (hpin : c.pin < 0) (hp : c.preset? id = some p) :
    ∃ v, p.variants[(c.dice.below p.variants.length).1]? = some v ∧
      c.load id = (v.build.mapError .invalid,
        { c with dice := (c.dice.below p.variants.length).2 }) := by
  have hlt := c.dice.below_lt (h id p hp)
  refine ⟨_, List.getElem?_eq_getElem hlt, ?_⟩
  rw [load, hp]
  dsimp only
  rw [choose, if_pos hpin]
  dsimp only
  rw [Int.toNat_natCast, List.getElem?_eq_getElem hlt]

theorem load_of_unknown (h : c.preset? id = none) :
    c.load id = (.error (.unknownPreset id), c) := by
  rw [load, h]

/-- A load of a pinned variant changes nothing. -/
theorem load_of_pinned (hpin : 0 ≤ c.pin) : (c.load id).2 = c := by
  cases hp : c.preset? id with
  | none => rw [load_of_unknown hp]
  | some p =>
    rw [load, hp]
    dsimp only
    rw [choose, if_neg (Int.not_lt.2 hpin)]
    dsimp only
    split
    · rfl
    · rfl

/-- A load throws the dice at most. -/
theorem exists_load_snd (c : Catalog) (id : Text) :
    ∃ dice, (c.load id).2 = { c with dice := dice } := by
  cases hp : c.preset? id with
  | none => exact ⟨c.dice, by rw [load_of_unknown hp]⟩
  | some p =>
    refine ⟨(c.choose p).2.dice, ?_⟩
    rw [load, hp]
    dsimp only
    have hchoose : (c.choose p).2 = { c with dice := (c.choose p).2.dice } := by
      rw [choose]
      split
      · rfl
      · rfl
    split
    · exact hchoose
    · exact hchoose

/-! ## Requests -/

/-- What a catalog can be asked for. -/
inductive Request where
  | seed (seed : Int)
  | pin (n : Int)
  | load (id : Text)
  deriving DecidableEq, Repr

/-- The catalog after a request. -/
def serve (c : Catalog) : Request → Catalog
  | .seed seed => c.withSeed seed
  | .pin n => c.withPin n
  | .load id => (c.load id).2

/-- The catalog after some requests. -/
def after (c : Catalog) (requests : List Request) : Catalog := requests.foldl serve c

/-- What a request gives, if it is a load. -/
def outcome? (c : Catalog) : Request → Option (Except LoadError Maze)
  | .load id => some (c.load id).1
  | _ => none

/-- What the loads among some requests give, each under the label of its request. -/
def outcomes {κ : Type} : Catalog → List (κ × Request) → List (κ × Except LoadError Maze)
  | _, [] => []
  | c, (k, r) :: rest => ((c.outcome? r).map fun o => (k, o)).toList ++ outcomes (c.serve r) rest

/-- A load that does not throw the dice: the variant is pinned, or the preset is unknown. -/
def Idle (c : Catalog) : Request → Prop
  | .load id => 0 ≤ c.pin ∨ c.preset? id = none
  | _ => False

/-- All requests whose labels are not kept are idle loads at the time they come. -/
def Spares {κ : Type} (keep : κ → Bool) : Catalog → List (κ × Request) → Prop
  | _, [] => True
  | c, (k, r) :: rest => (keep k = false → c.Idle r) ∧ Spares keep (c.serve r) rest

theorem serve_of_idle {r : Request} (h : c.Idle r) : c.serve r = c := by
  cases r with
  | seed seed => exact h.elim
  | pin n => exact h.elim
  | load id =>
    rcases h with hpin | hunknown
    · exact load_of_pinned hpin
    · rw [serve, load_of_unknown hunknown]

@[simp] theorem preset?_serve (c : Catalog) (r : Request) (id : Text) :
    (c.serve r).preset? id = c.preset? id := by
  cases r with
  | seed seed => rfl
  | pin n => rfl
  | load id' =>
    obtain ⟨dice, hdice⟩ := c.exists_load_snd id'
    rw [serve, hdice]
    rfl

@[simp] theorem pin_serve_load (c : Catalog) (id : Text) : (c.serve (.load id)).pin = c.pin := by
  obtain ⟨dice, hdice⟩ := c.exists_load_snd id
  rw [serve, hdice]

@[simp] theorem pin_serve_pin (c : Catalog) (n : Int) : (c.serve (.pin n)).pin = n := rfl

theorem preset?_after (c : Catalog) (requests : List Request) (id : Text) :
    (c.after requests).preset? id = c.preset? id := by
  induction requests generalizing c with
  | nil => rfl
  | cons r rest ih =>
    show ((c.serve r).after rest).preset? id = c.preset? id
    rw [ih, preset?_serve]

theorem Stocked.after (h : c.Stocked) (requests : List Request) : (c.after requests).Stocked := by
  intro id p hp
  rw [preset?_after] at hp
  exact h id p hp

/-- Idle loads can be left out. -/
theorem outcomes_filter {κ : Type} {keep : κ → Bool} {requests : List (κ × Request)}
    (h : Spares keep c requests) :
    c.outcomes (requests.filter fun r => keep r.1)
      = (c.outcomes requests).filter fun o => keep o.1 := by
  induction requests generalizing c with
  | nil => rfl
  | cons request rest ih =>
    obtain ⟨k, r⟩ := request
    obtain ⟨hidle, hrest⟩ := h
    rw [outcomes, List.filter_append, ← ih hrest, List.filter_cons]
    cases hk : keep k with
    | true =>
      rw [if_pos rfl, outcomes]
      cases c.outcome? r with
      | none => rfl
      | some o => simp [hk]
    | false =>
      -- an idle load leaves the catalog as it was, so the same one is asked for the rest
      rw [if_neg Bool.false_ne_true, serve_of_idle (hidle hk)]
      cases c.outcome? r with
      | none => rfl
      | some o => simp [hk]

/-- **Only unpinned loads of known presets throw the dice.**  Let a catalog be read from a text, and
let it be asked for anything, one thing after the other.  All loads that come while a variant is
pinned, and all loads of unknown presets, or some of them, can be left out: the loads that remain
give the same mazes and the same errors.  A load of a known preset that comes while no variant is
pinned throws the dice, builds the variant that they show, and never lacks one. -/
theorem idle_loads_leave_no_trace {t : Text} (h : ofText t = .ok c) :
    (∀ {κ : Type} (keep : κ → Bool) (requests : List (κ × Request)), Spares keep c requests →
      c.outcomes (requests.filter fun r => keep r.1)
        = (c.outcomes requests).filter fun o => keep o.1) ∧
    ∀ (requests : List Request) (id : Text) (p : Preset),
      (c.after requests).pin < 0 → c.preset? id = some p →
      (∃ v, p.variants[((c.after requests).dice.below p.variants.length).1]? = some v ∧
        (c.after requests).load id = (v.build.mapError .invalid,
          { c.after requests with
            dice := ((c.after requests).dice.below p.variants.length).2 })) ∧
      ∀ id' count n, ((c.after requests).load id).1 ≠ .error (.noVariant id' count n) := by
  refine ⟨fun keep requests hspares => outcomes_filter hspares, ?_⟩
  intro requests id p hpin hp
  rw [← preset?_after c requests] at hp
  obtain ⟨v, hv, hload⟩ := load_of_unpinned ((stocked_of_ofText h).after requests) hpin hp
  refine ⟨⟨v, hv, hload⟩, fun id' count n => ?_⟩
  rw [hload]
  intro hlacks
  cases hbuild : v.build with
  | ok m =>
    rw [hbuild] at hlacks
    cases hlacks
  | error issues =>
    rw [hbuild] at hlacks
    cases hlacks

/-- A preset with two variants. -/
def lanes : Text :=
  Text.join [Text.lineFeed]
    ["presets:",
     "  '1':",
     "    variants:",
     "    - facing: east",
     "      rows: ['******', '*RKDE*', '******']",
     "    - facing: west",
     "      rows: ['******', '*EDKR*', '******']"]

theorem exists_ofText_lanes :
    ∃ c p, ofText lanes = .ok c ∧ c.pin = -1 ∧ c.preset? "1" = some p ∧ c.preset? "9" = none := by
  have hread : (ofText lanes).toOption.map
      (fun c => (c.pin, (c.preset? "1").isSome, c.preset? "9")) = some (-1, true, none) := by
    decide +kernel
  cases hlanes : ofText lanes with
  | error e =>
    rw [hlanes] at hread
    cases hread
  | ok c =>
    rw [hlanes] at hread
    simp only [Except.toOption, Option.map_some, Option.some.injEq, Prod.mk.injEq] at hread
    obtain ⟨hpin, hone, hnine⟩ := hread
    obtain ⟨p, hp⟩ := Option.isSome_iff_exists.1 hone
    exact ⟨c, p, rfl, hpin, hp, hnine⟩

/-- Two loads of a lane, with a load of a pinned lane and two of an unknown preset between them. -/
def lanesRequests : List (Nat × Request) :=
  [(1, .load "1"), (2, .pin 1), (3, .load "1"), (4, .load "9"), (5, .pin (-1)), (6, .load "9"),
    (7, .load "1")]

/-- The second lane that the dice choose is the same without the loads in between. -/
theorem lanes_idle_loads_leave_no_trace :
    ∃ c p, ofText lanes = .ok c ∧ c.preset? "1" = some p ∧ (c.after [.load "1"]).pin < 0 ∧
      Spares (fun k => k ∉ [3, 4, 6]) c lanesRequests ∧
      c.outcomes [(1, .load "1"), (2, .pin 1), (5, .pin (-1)), (7, .load "1")]
        = (c.outcomes lanesRequests).filter (fun o => o.1 ∉ [3, 4, 6]) ∧
      ∀ id' count n, ((c.after [.load "1"]).load "1").1 ≠ .error (.noVariant id' count n) := by
  obtain ⟨c, p, hread, hpin, hone, hnine⟩ := exists_ofText_lanes
  obtain ⟨hfilter, hloads⟩ := idle_loads_leave_no_trace hread
  have hspares : Spares (fun k => k ∉ [3, 4, 6]) c lanesRequests := by
    simp [Spares, lanesRequests, Idle, hnine]
  have hunpinned : (c.after [.load "1"]).pin < 0 := by
    simp [after, hpin]
  exact ⟨c, p, hread, hone, hunpinned, hspares, hfilter _ lanesRequests hspares,
    (hloads _ "1" p hunpinned hone).2⟩

end Catalog

end RobotMaze

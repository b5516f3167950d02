import RobotMaze.Proofs.Maze.History
import RobotMaze.Proofs.Maze.Motion
import RobotMaze.Proofs.Maze.Rendering

/-!
# Maps behind drawings

A drawing and the start tell the whole map but for the byte under the arrow.  Four bytes can be
there, and each of them gives another map; the first of these maps that is accepted is read.  Two of
them can both be accepted: a key under the arrow may be floor as well, if another key can be reached
from the start.  Then the map with the floor has attempts that end in the very same drawing.  In all
other cases the map that is read is the one that was drawn.

* `Maze.ValidMap.isMap_floor_iff` — when a map with floor instead of a key is still a map;
* `Maze.Built.exists_after` — the robot can get to any place with or without a key, and with the way
  out open or closed;
* `Maze.PlayedOn.readBack_render` — what is read from a drawing;
* `Maze.ofRows_render_reads_back` — drawings after any attempts, and what is read back from them;
* `Maze.hidden_key_not_readable` — no reader is right about all drawings.
-/

namespace RobotMaze

open Text

namespace Maze

variable {rows : List Text} {columns : Nat} {facing : Int} {correctKey : Option Point}
  {p q r start : Point} {b c d : UInt8} {n : Maze}

/-! ## Maps that differ at a point -/

theorem byteAt_mapPoints (f : Point → UInt8 → UInt8) (rows : List Text) (p : Point) :
    byteAt (mapPoints f rows) p = (byteAt rows p).map (f p) := by
  unfold byteAt
  split
  · next hp =>
    rw [mapPoints, List.getElem?_mapIdx]
    cases rows[p.y.toNat]? with
    | none => rfl
    | some row =>
      rw [Option.map_some, Option.bind_some, Option.bind_some, List.getElem?_mapIdx,
        Int.toNat_of_nonneg hp.1, Int.toNat_of_nonneg hp.2]
  · rfl

/-- The map with a byte drawn at a point, whatever was drawn there. -/
def withByte (rows : List Text) (q : Point) (b : UInt8) : List Text :=
  mapPoints (fun p b' => if p = q then b else b') rows

theorem byteAt_withByte (hq : byteAt rows q = some c) (p : Point) :
    byteAt (withByte rows q b) p = if p = q then some b else byteAt rows p := by
  rw [withByte, byteAt_mapPoints]
  split
  · next hp => rw [hp, hq, Option.map_some]
  · exact Option.map_id_apply

/-- A byte that is neither drawn nor replaced stays where it is. -/
theorem byteAt_withByte_eq_some_iff (hq : byteAt rows q = some c) (hb : d ≠ b) (hc : d ≠ c) :
    byteAt (withByte rows q b) p = some d ↔ byteAt rows p = some d := by
  rw [byteAt_withByte hq]
  split
  · next hp =>
    rw [hp, hq, Option.some.injEq, Option.some.injEq]
    exact iff_of_false hb.symm hc.symm
  · rfl

theorem withByte_self (hq : byteAt rows q = some b) : withByte rows q b = rows := by
  refine (mapPoints_congr fun p b' hb' => ?_).trans (mapPoints_id rows)
  split
  · next hp =>
    rw [hp, hq] at hb'
    exact Option.some.inj hb'
  · rfl

/-- The same points are open, whatever is drawn at one of them. -/
theorem isOpen_withByte (hq : byteAt rows q = some c) (hc : c ≠ Mark.wall.byte)
    (hb : b ≠ Mark.wall.byte) : isOpen (withByte rows q b) = isOpen rows := by
  funext p
  rw [isOpen, isOpen, byteAt_withByte hq]
  split
  · next hp =>
    rw [hp, hq, Option.any_some, Option.any_some, bne_iff_ne.2 hc, bne_iff_ne.2 hb]
  · rfl

/-- What is under the arrow is not drawn. -/
theorem mapPoints_glyph_withByte (robot : Robot) (rows : List Text) (b : UInt8) :
    mapPoints (glyph robot) (withByte rows robot.location b) = mapPoints (glyph robot) rows := by
  rw [withByte, mapPoints_mapPoints]
  refine mapPoints_congr fun p b' _ => ?_
  by_cases hp : p = robot.location
  · rw [glyph, glyph, if_pos hp, if_pos hp]
  · rw [if_neg hp]

/-! ## Which of them are maps -/

/-- Whether some rows are a map, with one of their keys as the correct one. -/
def isMap (rows : List Text) : Bool :=
  (places (rows.headD []).length rows .key).any fun key => (ofRows rows 0 (some key)).isOk

/-- The correct key may be named, and the robot may face another way. -/
theorem ValidMap.named (h : ValidMap columns rows facing correctKey)
    (hkey : IsCorrectKey rows correctKey p) : ValidMap columns rows 0 (some p) where
  tall := h.tall
  wide := h.wide
  even := h.even
  known := h.known
  closed := h.closed
  robot := h.robot
  door := h.door
  exit := h.exit
  key := h.key
  named_key k hk := by
    obtain rfl : p = k := Option.some.inj hk
    exact hkey.1
  named_of_several _ _ _ _ _ := rfl
  facing := by decide
  reach start goal hstart hgoal := by
    refine h.reach start goal hstart (hgoal.imp_left fun hcorrect => ?_)
    rw [hcorrect.2 p rfl]
    exact hkey

theorem isMap_iff :
    isMap rows = true ↔ ∃ columns facing correctKey, ValidMap columns rows facing correctKey := by
  rw [isMap, List.any_eq_true]
  constructor
  · rintro ⟨key, -, hok⟩
    cases hread : ofRows rows 0 (some key) with
    | ok m => exact ⟨_, _, _, validMap_of_ofRows hread⟩
    | error issues =>
      rw [hread] at hok
      cases hok
  · rintro ⟨columns, facing, correctKey, h⟩
    obtain rfl := h.drawn.length_headD (Nat.zero_lt_of_lt h.tall)
    obtain ⟨key, hkey, -⟩ := h.existsUnique_isCorrectKey
    obtain ⟨m, hm⟩ := (h.named hkey).exists_ofRows
    refine ⟨key, (h.drawn.mem_places (by decide)).2 hkey.1, ?_⟩
    rw [hm]
    rfl

/-- A door that is drawn over is missed, and so is an exit. -/
theorem ValidMap.not_isMap_withByte (h : ValidMap columns rows facing correctKey)
    (hq : byteAt rows q = some c) (hc : c = Mark.door.byte ∨ c = Mark.exit.byte) (hb : b ≠ c) :
    isMap (withByte rows q b) = false := by
  rw [Bool.eq_false_iff, Ne, isMap_iff]
  rintro ⟨columns', facing', correctKey', h'⟩
  have hunique : ∃! p, byteAt rows p = some c := by
    rcases hc with rfl | rfl
    · exact h.door
    · exact h.exit
  obtain ⟨p, hp⟩ : ∃ p, byteAt (withByte rows q b) p = some c := by
    rcases hc with rfl | rfl
    · exact h'.door.exists
    · exact h'.exit.exists
  rw [byteAt_withByte hq] at hp
  split at hp
  · exact hb (Option.some.inj hp)
  · next hne => exact hne (hunique.unique hp hq)

/-- A key is drawn at a point, and another key can be reached from the start. -/
def HidesKey (rows : List Text) (start q : Point) : Prop :=
  byteAt rows q = some Mark.key.byte ∧
    ∃ r, r ≠ q ∧ byteAt rows r = some Mark.key.byte ∧
      ∃ points, Path.Walk (isOpen rows) start r points

/-- Another key that can be reached makes a map of the rows with floor instead of a key. -/
theorem ValidMap.withFloor (h : ValidMap columns rows facing correctKey)
    (hstart : byteAt rows start = some Mark.robot.byte) (hq : byteAt rows q = some Mark.key.byte)
    (hne : r ≠ q) (hr : byteAt rows r = some Mark.key.byte)
    (hwalk : ∃ points, Path.Walk (isOpen rows) start r points) :
    ValidMap columns (withByte rows q Mark.floorByte) facing (some r) := by
  have hkeeps : ∀ k : Mark, k ≠ .key → ∀ p,
      byteAt (withByte rows q Mark.floorByte) p = some k.byte ↔ byteAt rows p = some k.byte := by
    intro k hk p
    refine byteAt_withByte_eq_some_iff hq ?_ ?_
    · cases k <;> decide
    · revert hk
      cases k <;> decide
  have hr' : byteAt (withByte rows q Mark.floorByte) r = some Mark.key.byte := by
    rw [byteAt_withByte hq, if_neg hne]
    exact hr
  have hlength : (withByte rows q Mark.floorByte).length = rows.length := List.length_mapIdx
  refine ⟨hlength ▸ h.tall, h.wide, ?_, ?_, ?_, ?_, ?_, ?_, ⟨r, hr'⟩, ?_, fun _ _ _ _ _ => rfl,
    h.facing, ?_⟩
  · intro row hrow
    obtain ⟨y, hy, rfl⟩ := List.mem_mapIdx.1 hrow
    rw [List.length_mapIdx]
    exact h.even _ (List.getElem_mem hy)
  · intro p b hb
    rw [byteAt_withByte hq] at hb
    split at hb
    · rw [← Option.some.inj hb]
      decide
    · exact h.known p b hb
  · intro p b hb hborder
    rw [hlength] at hborder
    rw [byteAt_withByte hq] at hb
    split at hb
    · -- a key does not stand on the border
      next hp =>
      cases h.closed q _ hq (hp ▸ hborder)
    · exact h.closed p b hb hborder
  · simpa only [hkeeps .robot (by decide)] using h.robot
  · simpa only [hkeeps .door (by decide)] using h.door
  · simpa only [hkeeps .exit (by decide)] using h.exit
  · intro k hk
    obtain rfl : r = k := Option.some.inj hk
    exact hr'
  · intro start' goal hstart' hgoal
    rw [hkeeps .robot (by decide)] at hstart'
    rw [hkeeps .door (by decide), hkeeps .exit (by decide)] at hgoal
    rw [isOpen_withByte hq (by decide) (by decide)]
    rcases hgoal with hkey | hgoal
    · rw [hkey.2 r rfl, h.robot.unique hstart' hstart]
      exact hwalk
    · exact h.reach start' goal hstart' (.inr hgoal)

/-- With floor instead of a key a map is still one exactly if another key can be reached. -/
theorem ValidMap.isMap_floor_iff (h : ValidMap columns rows facing correctKey)
    (hstart : byteAt rows start = some Mark.robot.byte) (hq : byteAt rows q = some Mark.key.byte) :
    isMap (withByte rows q Mark.floorByte) = true ↔ HidesKey rows start q := by
  rw [isMap_iff]
  constructor
  · rintro ⟨columns', facing', correctKey', h'⟩
    obtain ⟨r, hr, -⟩ := h'.existsUnique_isCorrectKey
    have hstart' : byteAt (withByte rows q Mark.floorByte) start = some Mark.robot.byte :=
      (byteAt_withByte_eq_some_iff hq (by decide) (by decide)).2 hstart
    have hwalk := h'.reach start r hstart' (.inl hr)
    rw [isOpen_withByte hq (by decide) (by decide)] at hwalk
    have hkey := hr.1
    rw [byteAt_withByte hq] at hkey
    split at hkey
    · cases hkey
    · next hne => exact ⟨hq, r, hne, hkey, hwalk⟩
  · rintro ⟨-, r, hne, hr, hwalk⟩
    exact ⟨_, _, _, h.withFloor hstart hq hne hr hwalk⟩

/-! ## Errands of the robot -/

/-- From wherever it has got to, the robot can walk to a cell that is linked to its start. -/
theorem Built.exists_after_at {m : Maze} (h : m.Built) (actions : List Action)
    (hq : m.Linked m.robot.location q) :
    ∃ more, (m.after (actions ++ more)).robot.location = q ∧
      (m.after actions).SameFlags (m.after (actions ++ more)) := by
  obtain ⟨hwf, hground⟩ := h.wellFormed.after actions
  obtain ⟨t, ht, hhere, -⟩ := h.wellFormed.leads_after actions
  -- back to the start, and on from there
  have hlinked : (m.after actions).Linked (m.after actions).robot.location q :=
    hground.linked ((Linked.symm ⟨t, ht, hhere⟩).trans hq)
  obtain ⟨more, n, -, hn, hloc, hflags, -⟩ := hwf.walk hlinked
  refine ⟨more, ?_⟩
  rw [after_append, after_of_performAll hn]
  exact ⟨hloc, hflags⟩

/-- The robot can open the way out without a key, or leave it closed. -/
theorem Built.exists_after_opened {m : Maze} (h : m.Built) (hasOpenedDoor : Bool) :
    ∃ actions, (m.after actions).hasKey = false ∧
      (m.after actions).hasOpenedDoor = hasOpenedDoor := by
  obtain ⟨hkey, -, hclosed⟩ := h.flags
  cases hasOpenedDoor with
  | false => exact ⟨[], hkey, hclosed⟩
  | true =>
    -- on the exit no key is needed
    obtain ⟨actions, hloc, hflags⟩ := h.exists_after_at [] (h.linked m.exit (by simp))
    rw [List.nil_append] at hloc hflags
    obtain ⟨hwf, hground⟩ := h.wellFormed.after actions
    have hexit : (m.after actions).atExit = true :=
      hwf.atExit_iff.2 (hloc.trans hground.exit.symm)
    have hopen : (m.after actions).perform .openDoor = .ok _ :=
      openDoor_eq_ok_iff.2 ⟨.inl hexit, rfl⟩
    refine ⟨actions ++ [.openDoor], ?_⟩
    rw [after_concat, attempt_of_perform hopen]
    exact ⟨hflags.1.trans hkey, rfl⟩

/-- The robot can pick a key or not, with the way out open or closed. -/
theorem Built.exists_after_flags {m : Maze} (h : m.Built) (hasKey hasOpenedDoor : Bool) :
    ∃ actions, (m.after actions).hasKey = hasKey ∧
      (m.after actions).hasOpenedDoor = hasOpenedDoor := by
  obtain ⟨first, hkey, hdoor⟩ := h.exists_after_opened hasOpenedDoor
  cases hasKey with
  | false => exact ⟨first, hkey, hdoor⟩
  | true =>
    obtain ⟨more, hloc, -, -, hflag⟩ := h.exists_after_at first (h.linked m.correctKey (by simp))
    obtain ⟨hwf, hground⟩ := h.wellFormed.after (first ++ more)
    have honKey : (m.after (first ++ more)).onKey = true := by
      rw [hwf.onKey_iff, hground.keys, hloc]
      exact h.wellFormed.correctKey_mem
    refine ⟨first ++ more ++ [.pickKey], ?_⟩
    rw [after_concat, attempt_pickKey, if_pos honKey]
    exact ⟨rfl, hflag.trans hdoor⟩

/-- **The robot can get to any place in any state.**  On a cell that is linked to its start it can
face any way, with or without a key, and with the way out open or closed. -/
theorem Built.exists_after {m : Maze} (h : m.Built) (hq : m.Linked m.robot.location q)
    (heading : Heading) (hasKey hasOpenedDoor : Bool) :
    ∃ actions, (m.after actions).robot = ⟨q, heading⟩ ∧ (m.after actions).hasKey = hasKey ∧
      (m.after actions).hasOpenedDoor = hasOpenedDoor := by
  obtain ⟨first, hkey, hdoor⟩ := h.exists_after_flags hasKey hasOpenedDoor
  obtain ⟨more, hloc, hkey', -, hdoor'⟩ := h.exists_after_at first hq
  have hturns := (m.after (first ++ more)).performAll_turnsTo heading
  refine ⟨first ++ more ++ (m.after (first ++ more)).robot.facing.turnsTo heading, ?_⟩
  rw [after_append, after_of_performAll hturns]
  refine ⟨?_, hkey'.trans hkey, hdoor'.trans hdoor⟩
  rw [← hloc]
  rfl

/-! ## Reading a drawing -/

/-- A drawing may be one of a map: some attempts on the map, from the start, end in it. -/
def MayShow (text : Text) (start : Point) (rows : List Text) : Prop :=
  ∃ facing correctKey m actions, ofRows rows facing correctKey = .ok m ∧
    m.robot.location = start ∧ (m.after actions).render = text

/-- The map of a drawing, with a byte for the arrow. -/
def filledIn (text : Text) (start : Point) (b : UInt8) : List Text :=
  mapPoints (fun p g =>
    if p = start then Mark.robot.byte
    else if g.length = 1 then g.headD Mark.floorByte
    else b) (glyphsOf text)

/-- The map that is read from a drawing of a robot that started on a point: the first one that is
accepted, with floor, a key, the door or the exit under the arrow. -/
def readBack (text : Text) (start : Point) : List Text :=
  (([Mark.floorByte, Mark.key.byte, Mark.door.byte, Mark.exit.byte].map (filledIn text start)).find?
    isMap).getD []

/-- What is filled in is the map, but for the byte under the arrow away from the start. -/
theorem PlayedOn.filledIn_render (h : PlayedOn rows start n) (b : UInt8) :
    filledIn n.render start b =
      if n.robot.location = start then rows else withByte rows n.robot.location b := by
  have hbytes : filledIn n.render start b = mapPoints (fun p b' =>
      if p = n.robot.location ∧ n.robot.location ≠ start then b else b') rows := by
    rw [filledIn, h.glyphsOf_render, mapPoints_mapPoints]
    refine mapPoints_congr fun p b' hb' => ?_
    have hstart : b' = Mark.robot.byte ↔ p = start := by
      rw [← h.start_iff, hb', Option.some.injEq]
    by_cases hp : p = n.robot.location
    · rw [glyph, if_pos hp, length_arrow, if_neg (by decide : ¬ 3 = 1), ← hp]
      by_cases hps : p = start
      · rw [if_pos hps, if_neg fun hc => hc.2 hps, hstart.2 hps]
      · rw [if_neg hps, if_pos ⟨rfl, hps⟩]
    · rw [glyph, if_neg hp, if_neg fun hc : p = n.robot.location ∧ _ => hp hc.1]
      by_cases hps : p = start
      · rw [if_pos hps, hstart.2 hps]
      · rw [if_neg hps, if_neg fun hb' => hps (hstart.1 hb'), if_pos (List.length_singleton ..),
          List.headD_cons]
  rw [hbytes]
  by_cases hloc : n.robot.location = start
  · rw [if_pos hloc]
    refine (mapPoints_congr fun p b' _ => ?_).trans (mapPoints_id rows)
    rw [if_neg fun hc => hc.2 hloc]
  · rw [if_neg hloc, withByte]
    refine mapPoints_congr fun p b' _ => ?_
    simp only [and_iff_left hloc]

/-- **What is read from a drawing**: the map, but floor for a key under the arrow if another key can
be reached. -/
theorem PlayedOn.readBack_render (h : PlayedOn rows start n) :
    (¬ HidesKey rows start n.robot.location → readBack n.render start = rows) ∧
      (HidesKey rows start n.robot.location →
        readBack n.render start = withByte rows n.robot.location Mark.floorByte) := by
  obtain ⟨columns, facing, correctKey, hvalid, -⟩ := h.map
  obtain ⟨b, hb, hwall⟩ := h.robot_drawn
  have hstart := (h.start_iff start).2 rfl
  have hmap : isMap rows = true := isMap_iff.2 ⟨_, _, _, hvalid⟩
  have hself := withByte_self hb
  have hkey : HidesKey rows start n.robot.location → b = Mark.key.byte := fun hhides =>
    Option.some.inj (hb.symm.trans hhides.1)
  simp only [readBack, List.map_cons, List.map_nil, h.filledIn_render, List.find?_cons]
  by_cases hloc : n.robot.location = start
  · have hrobot : b = Mark.robot.byte := Option.some.inj (hb.symm.trans (hloc ▸ hstart))
    simp only [if_pos hloc, hmap, Option.getD_some, implies_true, true_and]
    intro hhides
    exact absurd (hrobot.symm.trans (hkey hhides)) (by decide)
  simp only [if_neg hloc]
  rcases mem_symbols_iff.1 (hvalid.known _ b hb) with rfl | ⟨k, rfl⟩
  · rw [hself]
    simp only [hmap, Option.getD_some, implies_true, and_self]
  -- a byte before the right one in the list gives no map, but for floor instead of a key
  cases k with
  | wall => exact absurd rfl hwall
  | robot => exact absurd ((h.start_iff _).1 hb) hloc
  | key =>
    have hfloor := hvalid.isMap_floor_iff hstart hb
    rw [hself]
    constructor
    · intro hnot
      simp only [Bool.eq_false_iff.2 (mt hfloor.1 hnot), hmap, Option.getD_some]
    · intro hhides
      simp only [hfloor.2 hhides, Option.getD_some]
  | door =>
    have hnot : ∀ b, b ≠ Mark.door.byte → isMap (withByte rows n.robot.location b) = false :=
      fun b hne => hvalid.not_isMap_withByte hb (.inl rfl) hne
    rw [hself, hnot _ (by decide), hnot _ (by decide)]
    simp only [hmap, Option.getD_some, implies_true, true_and]
    intro hhides
    exact absurd (hkey hhides) (by decide)
  | exit =>
    have hnot : ∀ b, b ≠ Mark.exit.byte → isMap (withByte rows n.robot.location b) = false :=
      fun b hne => hvalid.not_isMap_withByte hb (.inr rfl) hne
    rw [hself, hnot _ (by decide), hnot _ (by decide), hnot _ (by decide)]
    simp only [hmap, Option.getD_some, implies_true, true_and]
    intro hhides
    exact absurd (hkey hhides) (by decide)

/-- A drawing with a key under the arrow is one of the map without this key, too, if another key can
be reached. -/
theorem mayShow_withFloor {m : Maze} (h : ofRows rows facing correctKey = .ok m)
    (actions : List Action)
    (hhides : HidesKey rows m.robot.location (m.after actions).robot.location) :
    MayShow (m.after actions).render m.robot.location
      (withByte rows (m.after actions).robot.location Mark.floorByte) := by
  obtain ⟨hq, r, hne, hr, hwalk⟩ := hhides
  have hplayed := playedOn_after h actions
  have hstart := (depicts_of_ofRows h).robot
  have hvalid := (validMap_of_ofRows h).withFloor hstart hq hne hr hwalk
  obtain ⟨m', h'⟩ := hvalid.exists_ofRows
  -- the robot starts on the same point, and the same points are open
  have hrobot : m'.robot.location = m.robot.location :=
    hvalid.robot.unique (depicts_of_ofRows h').robot
      ((byteAt_withByte_eq_some_iff hq (by decide) (by decide)).2 hstart)
  have hfree : m'.isFree = m.isFree := by
    rw [isFree_of_ofRows h', isFree_of_ofRows h, isOpen_withByte hq (by decide) (by decide)]
  obtain ⟨t, ht, hhere, -⟩ := (Built.rows h).wellFormed.leads_after actions
  have hlinked : m'.Linked m'.robot.location (m.after actions).robot.location := by
    rw [Linked, hrobot, hfree]
    exact ⟨t, ht, hhere⟩
  obtain ⟨actions', hposture, hkey, hdoor⟩ := (Built.rows h').exists_after hlinked
    (m.after actions).robot.facing (m.after actions).hasKey (m.after actions).hasOpenedDoor
  refine ⟨facing, some r, m', actions', h', hrobot, ?_⟩
  have hstatus : (m'.after actions').statusLine = (m.after actions).statusLine := by
    rw [statusLine, statusLine, hposture, hkey, hdoor]
  rw [(playedOn_after h' actions').render_eq, hplayed.render_eq, hstatus, hposture,
    mapPoints_glyph_withByte]

/-- **Drawings of a map.**  After any attempts on a map, the drawing has the rows of the map as
lines, with an arrow for the robot and floor at its start, and one more line; and the map is read
back from the drawing and the start, unless the robot stands on a key and another key can be reached
from the start.  Then the map with floor instead of this key is read, and the drawing is one of that
map as well. -/
theorem ofRows_render_reads_back {m : Maze} (h : ofRows rows facing correctKey = .ok m)
    (actions : List Action) :
    (∃ status, (m.after actions).render =
        inLines ((mapPoints (glyph (m.after actions).robot) rows).map (join [space]) ++ [status])) ∧
      (m.after actions).render.count lineFeed = rows.length + 1 ∧
      (¬ HidesKey rows m.robot.location (m.after actions).robot.location →
        readBack (m.after actions).render m.robot.location = rows) ∧
      (HidesKey rows m.robot.location (m.after actions).robot.location →
        readBack (m.after actions).render m.robot.location
            = withByte rows (m.after actions).robot.location Mark.floorByte ∧
          MayShow (m.after actions).render m.robot.location
            (withByte rows (m.after actions).robot.location Mark.floorByte)) := by
  have hplayed := playedOn_after h actions
  obtain ⟨hread, hfloor⟩ := hplayed.readBack_render
  refine ⟨⟨_, hplayed.render_eq⟩, ?_, hread, ?_⟩
  · have hlength := congrArg List.length hplayed.splitOn_render
    rw [length_splitOn, List.length_append, List.length_append, List.length_map, mapPoints,
      List.length_mapIdx] at hlength
    exact Nat.succ.inj hlength
  · intro hhides
    exact ⟨hfloor hhides, mayShow_withFloor h actions hhides⟩

/-- A corridor with two keys, of which the one behind a wall cannot be reached. -/
def walledKey : List Text := ["********", "*RKDE*K*", "********"]

/-- After one move the robot stands on the first key, in both corridors.  In that of `twoKeys` the
other key can be reached, so the first one reads as floor, and the map with floor can look the same;
in that of `walledKey` the first key is the only one that can be reached, and it is read. -/
theorem twoKeys_render_reads_back :
    (∃ m, ofRows twoKeys 3 (some ⟨4, 1⟩) = .ok m ∧
        (∃ status, (m.after [.moveForward]).render = inLines ["* * * * * * *", "* . ► D K E *",
          "* * * * * * *", status]) ∧
        (m.after [.moveForward]).render.count lineFeed = 4 ∧
        readBack (m.after [.moveForward]).render ⟨1, 1⟩ =
          [utf8 "*******", utf8 "*R.DKE*", utf8 "*******"] ∧
        MayShow (m.after [.moveForward]).render ⟨1, 1⟩
          [utf8 "*******", utf8 "*R.DKE*", utf8 "*******"]) ∧
      ∃ m, ofRows walledKey 3 (some ⟨2, 1⟩) = .ok m ∧
        readBack (m.after [.moveForward]).render ⟨1, 1⟩ = walledKey := by
  have h : ofRows twoKeys 3 (some ⟨4, 1⟩)
      = .ok (ofDrawing twoKeys ⟨1, 1⟩ ⟨3, 1⟩ ⟨5, 1⟩ ⟨4, 1⟩ .east) := rfl
  have h' : ofRows walledKey 3 (some ⟨2, 1⟩)
      = .ok (ofDrawing walledKey ⟨1, 1⟩ ⟨3, 1⟩ ⟨4, 1⟩ ⟨2, 1⟩ .east) := rfl
  have hhides : HidesKey twoKeys ⟨1, 1⟩ ⟨2, 1⟩ :=
    ((validMap_of_ofRows h).isMap_floor_iff rfl rfl).1 rfl
  have hshows : ¬ HidesKey walledKey ⟨1, 1⟩ ⟨2, 1⟩ := by
    rw [← (validMap_of_ofRows h').isMap_floor_iff rfl rfl]
    decide
  obtain ⟨hlines, hcount, -, hfloor⟩ := ofRows_render_reads_back h [.moveForward]
  obtain ⟨-, -, hread, -⟩ := ofRows_render_reads_back h' [.moveForward]
  exact ⟨⟨_, h, hlines, hcount, hfloor hhides⟩, _, h', hread hshows⟩

/-- After one move the corridors with a key and with floor before the robot are drawn alike; so no
reader finds every map from its drawings and the start. -/
theorem hidden_key_not_readable :
    ¬ ∃ read : Text → Point → List Text,
      ∀ (rows : List Text) (facing : Int) (correctKey : Option Point) (m : Maze)
        (actions : List Action), ofRows rows facing correctKey = .ok m →
          read (m.after actions).render m.robot.location = rows := by
  rintro ⟨read, hread⟩
  have hfloor : ofRows ["*******", "*R.KDE*", "*******"] 3 (some ⟨3, 1⟩) = .ok
      (ofDrawing ["*******", "*R.KDE*", "*******"] ⟨1, 1⟩ ⟨4, 1⟩ ⟨5, 1⟩ ⟨3, 1⟩ .east) := rfl
  have hkey : ofRows ["*******", "*RKKDE*", "*******"] 3 (some ⟨3, 1⟩) = .ok
      (ofDrawing ["*******", "*RKKDE*", "*******"] ⟨1, 1⟩ ⟨4, 1⟩ ⟨5, 1⟩ ⟨3, 1⟩ .east) := rfl
  have hmap := hread _ _ _ _ [.moveForward] hfloor
  have hmap' := hread _ _ _ _ [.moveForward] hkey
  -- After one move both maps are drawn as `* . ► K D E *`.
  exact absurd (hmap.symm.trans hmap') (by decide)

end Maze

end RobotMaze

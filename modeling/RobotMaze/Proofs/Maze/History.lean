import RobotMaze.Proofs.Maze.Attempt
import Mathlib.Data.List.Induction

/-!
# What the flags of a maze remember

A maze tells by three flags whether the robot carries a key, whether it carries the correct one, and
whether it has opened the way out.  All three can be read off the attempts that were made and the
places where the robot stood: a key is carried from a pick to the next throw, wherever else keys are
picked meanwhile, and what is opened stays open.

* `Maze.Since` — an attempt was made at some moment, and nothing after it undoes it;
* `Maze.hasKey_attempt`, `Maze.WellFormed.hasCorrectKey_attempt`,
  `Maze.WellFormed.hasOpenedDoor_attempt` — what one attempt does to the flags;
* `Maze.Built.flags_of_history` — what the flags are after any attempts.
-/

namespace RobotMaze.Maze

/-! ## Moments of a history -/

/-- Among the actions there is an attempt at `a` before which `moment` holds of the actions so far,
and nothing after it is of the kind `undoes`. -/
def Since (a : Action) (moment : List Action → Prop) (undoes : Action → Prop)
    (actions : List Action) : Prop :=
  ∃ before rest, actions = before ++ a :: rest ∧ moment before ∧ ∀ b ∈ rest, ¬ undoes b

section

variable {a b : Action} {moment : List Action → Prop} {undoes : Action → Prop}
  {actions : List Action}

theorem not_since_nil : ¬ Since a moment undoes [] := by
  rintro ⟨before, rest, h, -⟩
  simp at h

/-- The last action is the attempt, or it undoes nothing. -/
theorem since_concat :
    Since a moment undoes (actions ++ [b]) ↔
      b = a ∧ moment actions ∨ ¬ undoes b ∧ Since a moment undoes actions := by
  constructor
  · rintro ⟨before, rest, hsplit, hmoment, hrest⟩
    induction rest using List.reverseRecOn with
    | nil =>
      obtain ⟨rfl, hab⟩ := List.append_inj' hsplit rfl
      obtain rfl : b = a := by simpa using hab
      exact .inl ⟨rfl, hmoment⟩
    | append_singleton rest c _ =>
      rw [← List.cons_append, ← List.append_assoc] at hsplit
      obtain ⟨rfl, hbc⟩ := List.append_inj' hsplit rfl
      obtain rfl : b = c := by simpa using hbc
      exact .inr ⟨hrest b (by simp), before, rest, rfl, hmoment,
        fun d hd => hrest d (List.mem_append_left _ hd)⟩
  · rintro (⟨rfl, hmoment⟩ | ⟨hb, before, rest, rfl, hmoment, hrest⟩)
    · exact ⟨actions, [], rfl, hmoment, by simp⟩
    · refine ⟨before, rest ++ [b], by simp, hmoment, fun c hc => ?_⟩
      rcases List.mem_append.1 hc with hc | hc
      · exact hrest c hc
      · rwa [List.mem_singleton.1 hc]

end

/-- The robot tried to pick a key on one of the `places`, and has not thrown its key away since. -/
def Picked (m : Maze) (places : Point → Prop) : List Action → Prop :=
  Since .pickKey (fun before => places (m.after before).robot.location) (· = .throwAwayKey)

theorem picked_concat {m : Maze} {places : Point → Prop} {actions : List Action} {a : Action} :
    m.Picked places (actions ++ [a]) ↔
      a = .pickKey ∧ places (m.after actions).robot.location ∨
        a ≠ .throwAwayKey ∧ m.Picked places actions :=
  since_concat

/-- The robot tried to open the door on the exit; or on the door, when it carried a key and, if
there are several, the correct one. -/
def OpenedWay (m : Maze) : List Action → Prop :=
  Since .openDoor
    (fun before => (m.after before).robot.location = m.exit ∨
      (m.after before).robot.location = m.door ∧ m.Picked (· ∈ m.keys) before ∧
        (1 < m.keys.length → m.Picked (· = m.correctKey) before))
    fun _ => False

/-! ## Single attempts -/

theorem attempt_moveForward (m : Maze) :
    m.attempt .moveForward
      = if m.frontIsClear = true then m.standingAt m.robot.front else m := by
  rw [attempt, perform, moveForward]
  by_cases hclear : m.frontIsClear = true
  · rw [if_pos hclear, if_pos hclear]
    rfl
  · rw [if_neg hclear, if_neg hclear]

theorem attempt_pickKey (m : Maze) :
    m.attempt .pickKey
      = if m.onKey = true then
          m.withFlags true (m.hasCorrectKey || decide (m.robot.location = m.correctKey))
            m.hasOpenedDoor
        else m := by
  rw [attempt, perform, pickKey]
  by_cases hkey : m.onKey = true
  · rw [if_pos hkey, if_pos hkey]
    rfl
  · rw [if_neg hkey, if_neg hkey]

/-- A pick on a key gives a key, and only a throw takes it away. -/
theorem hasKey_attempt (m : Maze) (a : Action) :
    (m.attempt a).hasKey = true ↔
      a = .pickKey ∧ m.onKey = true ∨ a ≠ .throwAwayKey ∧ m.hasKey = true := by
  cases a with
  | moveForward =>
    rw [attempt_moveForward]
    split <;> simp [standingAt]
  | pickKey =>
    rw [attempt_pickKey]
    split <;> simp_all [withFlags]
  | openDoor =>
    rw [attempt]
    split
    · next n hopen =>
      obtain ⟨-, rfl⟩ := openDoor_eq_ok_iff.1 hopen
      simp [withFlags]
    · simp
  | turnLeft => simp [attempt, perform, turn]
  | turnRight => simp [attempt, perform, turn]
  | throwAwayKey => simp [attempt, perform, throwAwayKey]

namespace WellFormed

variable {m : Maze}

theorem onKey_iff (h : m.WellFormed) : m.onKey = true ↔ m.robot.location ∈ m.keys := h.key_iff _

theorem atDoor_iff (h : m.WellFormed) : m.atDoor = true ↔ m.robot.location = m.door := h.door_iff _

theorem atExit_iff (h : m.WellFormed) : m.atExit = true ↔ m.robot.location = m.exit := h.exit_iff _

/-- A pick on the correct key gives it.  A pick elsewhere does not take it away, but a throw does.
-/
theorem hasCorrectKey_attempt (h : m.WellFormed) (a : Action) :
    (m.attempt a).hasCorrectKey = true ↔
      a = .pickKey ∧ m.robot.location = m.correctKey ∨
        a ≠ .throwAwayKey ∧ m.hasCorrectKey = true := by
  cases a with
  | moveForward =>
    rw [attempt_moveForward]
    split <;> simp [Maze.standingAt]
  | pickKey =>
    -- the correct key is one of the keys, so the pick is accepted there
    have hkey : m.robot.location = m.correctKey → m.onKey = true := by
      intro hcorrect
      rw [h.onKey_iff, hcorrect]
      exact h.correctKey_mem
    rw [attempt_pickKey]
    split
    · simp [Maze.withFlags, or_comm]
    · next hnot => simp [mt hkey hnot]
  | openDoor =>
    rw [Maze.attempt]
    split
    · next n hopen =>
      obtain ⟨-, rfl⟩ := openDoor_eq_ok_iff.1 hopen
      simp [Maze.withFlags]
    · simp
  | turnLeft => simp [Maze.attempt, Maze.perform, Maze.turn]
  | turnRight => simp [Maze.attempt, Maze.perform, Maze.turn]
  | throwAwayKey => simp [Maze.attempt, Maze.perform, throwAwayKey]

/-- The way out opens on the exit, and on the door with the key that is needed. -/
theorem opens_iff (h : m.WellFormed) :
    (∃ n, m.perform .openDoor = .ok n) ↔
      m.robot.location = m.exit ∨ m.robot.location = m.door ∧ m.hasKey = true ∧
        (1 < m.keys.length → m.hasCorrectKey = true) := by
  simp [Maze.perform, openDoor_eq_ok_iff, h.atExit_iff, h.atDoor_iff, hasSeveralKeys]

/-- What is opened stays open. -/
theorem hasOpenedDoor_attempt (h : m.WellFormed) (a : Action) :
    (m.attempt a).hasOpenedDoor = true ↔
      a = .openDoor ∧ (m.robot.location = m.exit ∨ m.robot.location = m.door ∧ m.hasKey = true ∧
        (1 < m.keys.length → m.hasCorrectKey = true)) ∨ m.hasOpenedDoor = true := by
  cases a with
  | moveForward =>
    rw [attempt_moveForward]
    split <;> simp [Maze.standingAt]
  | pickKey =>
    rw [attempt_pickKey]
    split <;> simp [Maze.withFlags]
  | openDoor =>
    rw [← h.opens_iff, Maze.attempt]
    split
    · next n hopen =>
      obtain ⟨-, hn⟩ := openDoor_eq_ok_iff.1 hopen
      simp [hn, Maze.withFlags, hopen]
    · next reason hclosed => simp [hclosed]
  | turnLeft => simp [Maze.attempt, Maze.perform, Maze.turn]
  | turnRight => simp [Maze.attempt, Maze.perform, Maze.turn]
  | throwAwayKey => simp [Maze.attempt, Maze.perform, throwAwayKey]

end WellFormed

/-! ## Histories -/

/-- A maze is built with an empty-handed robot and a closed door. -/
theorem Built.flags {m : Maze} (h : m.Built) :
    m.hasKey = false ∧ m.hasCorrectKey = false ∧ m.hasOpenedDoor = false := by
  cases h with
  | room h =>
    obtain ⟨-, -, -, heading, -, rfl⟩ := room_eq_ok_iff.1 h
    exact ⟨rfl, rfl, rfl⟩
  | rows h =>
    obtain ⟨-, -, robot, door, exit, key, heading, -, rfl, -⟩ := ofRows_eq_ok_iff.1 h
    exact ⟨rfl, rfl, rfl⟩

theorem after_concat (m : Maze) (actions : List Action) (a : Action) :
    m.after (actions ++ [a]) = (m.after actions).attempt a := by
  rw [after_append, after_cons, after_nil]

/-- **The flags are told by the history.**  After any attempts in a maze as it was built, the robot
has a key if it tried to pick one on the place of a key and has thrown none away since; it has the
correct key if it tried so on the place of the correct key; and the way out is open if it tried to
open it on the exit, or on the door when by its history it carried the key that is needed. -/
theorem Built.flags_of_history {m : Maze} (h : m.Built) (actions : List Action) :
    ((m.after actions).hasKey = true ↔ m.Picked (· ∈ m.keys) actions) ∧
      ((m.after actions).hasCorrectKey = true ↔ m.Picked (· = m.correctKey) actions) ∧
      ((m.after actions).hasOpenedDoor = true ↔ m.OpenedWay actions) := by
  -- the last attempt decides, or it leaves the flag as it was
  induction actions using List.reverseRecOn with
  | nil =>
    obtain ⟨hkey, hcorrect, hopened⟩ := h.flags
    rw [after_nil, hkey, hcorrect, hopened]
    exact ⟨iff_of_false (by decide) not_since_nil, iff_of_false (by decide) not_since_nil,
      iff_of_false (by decide) not_since_nil⟩
  | append_singleton actions a ih =>
    obtain ⟨hkey, hcorrect, hopened⟩ := ih
    obtain ⟨hwf, hground⟩ := h.wellFormed.after actions
    have hkey' : (m.after (actions ++ [a])).hasKey = true ↔
        m.Picked (· ∈ m.keys) (actions ++ [a]) := by
      rw [after_concat, hasKey_attempt, hwf.onKey_iff, hground.keys, hkey, picked_concat]
    have hcorrect' : (m.after (actions ++ [a])).hasCorrectKey = true ↔
        m.Picked (· = m.correctKey) (actions ++ [a]) := by
      rw [after_concat, hwf.hasCorrectKey_attempt, hground.correctKey, hcorrect, picked_concat]
    refine ⟨hkey', hcorrect', ?_⟩
    rw [after_concat, hwf.hasOpenedDoor_attempt, hground.exit, hground.door, hground.keys, hkey,
      hcorrect, hopened, OpenedWay, since_concat, not_false_eq_true, true_and]

/-- In the corridor the robot first picks the wrong key and is refused at the door.  It goes on to
the correct key behind the door, and comes back to open it, with both keys in its hand. -/
theorem twoKeys_flags_of_history :
    ∃ m, ofRows twoKeys 3 (some ⟨4, 1⟩) = .ok m ∧
      m.Picked (· ∈ m.keys) [.moveForward, .pickKey, .moveForward, .openDoor] ∧
      ¬ m.Picked (· = m.correctKey) [.moveForward, .pickKey, .moveForward, .openDoor] ∧
      ¬ m.OpenedWay [.moveForward, .pickKey, .moveForward, .openDoor] ∧
      m.OpenedWay [.moveForward, .pickKey, .moveForward, .openDoor, .moveForward, .pickKey,
        .turnLeft, .turnLeft, .moveForward, .openDoor] := by
  have h : ofRows twoKeys 3 (some ⟨4, 1⟩)
      = .ok (ofDrawing twoKeys ⟨1, 1⟩ ⟨3, 1⟩ ⟨5, 1⟩ ⟨4, 1⟩ .east) := rfl
  obtain ⟨hkey, hcorrect, hopened⟩ := Built.flags_of_history (.rows h)
    [.moveForward, .pickKey, .moveForward, .openDoor]
  obtain ⟨-, -, hopened'⟩ := Built.flags_of_history (.rows h)
    [.moveForward, .pickKey, .moveForward, .openDoor, .moveForward, .pickKey, .turnLeft, .turnLeft,
      .moveForward, .openDoor]
  exact ⟨_, h, hkey.1 (by decide), fun hp => absurd (hcorrect.2 hp) (by decide),
    fun ho => absurd (hopened.2 ho) (by decide), hopened'.1 (by decide)⟩

end RobotMaze.Maze

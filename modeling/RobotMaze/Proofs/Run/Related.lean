import RobotMaze.Run.Session
import Mathlib.Tactic.Common

/-!
# Related steps

Two steps of runs are related if from corresponding sessions they do corresponding things: both go
on, with related values, and the sessions they leave correspond again, or both stop, for
corresponding reasons.  Some reasons to stop of the first step may be excused; nothing is asked of
the second step then.

What corresponds is told by an `Accord`.  The lemmas say that the operations of `Step` respect every
accord, so that programs can be compared piece by piece.
-/

namespace RobotMaze

/-- What corresponds in two runs. -/
structure Accord where
  /-- Lines that are executed side by side. -/
  lines : Int → Int → Prop
  /-- Places where ranges of lines start and stop. -/
  spots : Int → Int → Prop
  /-- Columns of words on such lines. -/
  columns : Int → Int → Prop
  /-- What a word of the first run is called in the second. -/
  texts : Text → Text := id
  sessions : Session → Session → Prop
  /-- Reasons to stop, with the sessions that are left. -/
  stops : Stop → Session → Stop → Session → Prop
  /-- Reasons of the first run to stop after which nothing is asked of the second. -/
  excused : Stop → Prop := fun _ => False

namespace Step

variable {α β γ δ : Type}

theorem bind_of_ok {x : Step α} {f : α → Step β} {s t : Session} {a : α} (h : x s = .ok a t) :
    (x >>= f) s = f a t := by
  show EStateM.bind x f s = _
  rw [EStateM.bind, h]

theorem bind_of_error {x : Step α} {f : α → Step β} {s t : Session} {e : Stop}
    (h : x s = .error e t) : (x >>= f) s = .error e t := by
  show EStateM.bind x f s = _
  rw [EStateM.bind, h]

theorem bind_get (f : Session → Step α) (s : Session) : (get >>= f) s = f s s := rfl

theorem bind_modify (g : Session → Session) (f : Unit → Step α) (s : Session) :
    (modify g >>= f) s = f () (g s) := rfl

theorem ofExcept_of_ok {x : Except Stop α} {a : α} (h : x = .ok a) (s : Session) :
    Step.ofExcept x s = .ok a s := by
  rw [h]
  rfl

theorem ofExcept_of_error {x : Except Stop α} {e : Stop} (h : x = .error e) (s : Session) :
    Step.ofExcept x s = .error e s := by
  rw [h]
  rfl

/-! ## Corresponding results -/

/-- Two results correspond. -/
def Matches (A : Accord) (values : α → β → Prop) :
    EStateM.Result Stop Session α → EStateM.Result Stop Session β → Prop
  | .ok a s, .ok b t => values a b ∧ A.sessions s t
  | .error e s, .error f t => A.excused e ∨ A.stops e s f t
  | .error e _, .ok _ _ => A.excused e
  | .ok _ _, .error _ _ => False

/-- From corresponding sessions two steps have corresponding results. -/
def Related (A : Accord) (values : α → β → Prop) (x : Step α) (y : Step β) : Prop :=
  ∀ s t, A.sessions s t → Matches A values (x s) (y t)

variable {A : Accord} {values : α → β → Prop}

theorem matches_of_excused {x : EStateM.Result Stop Session α} {e : Stop} {s : Session}
    (hx : x = .error e s) (he : A.excused e) (y : EStateM.Result Stop Session β) :
    Matches A values x y := by
  subst hx
  cases y with
  | ok b t => exact he
  | error f t => exact .inl he

/-- Where only equal sessions correspond, matching results are equal, or the first one fails, and
then it matches all that fails as the second one does. -/
theorem Matches.diagonal {x y : EStateM.Result Stop Session α}
    (hdiagonal : ∀ {s t}, A.sessions s t → t = s) (h : Matches A Eq x y) :
    (∃ a s, x = .ok a s ∧ y = .ok a s ∧ A.sessions s s) ∨
      ∃ e s, x = .error e s ∧ ∀ {γ : Type} {values : γ → γ → Prop}
        (z : EStateM.Result Stop Session γ), (∀ f t, y = .error f t → z = .error f t) →
          Matches A values (.error e s) z := by
  cases x with
  | ok a s =>
    cases y with
    | ok b t =>
      obtain ⟨rfl, hst⟩ := h
      obtain rfl := hdiagonal hst
      exact .inl ⟨a, t, rfl, rfl, hst⟩
    | error f t => exact h.elim
  | error e s =>
    refine .inr ⟨e, s, rfl, fun z hz => ?_⟩
    cases y with
    | ok b t => exact matches_of_excused rfl h z
    | error f t =>
      rw [hz f t rfl]
      exact h

/-- Where only equal sessions correspond and only equal reasons to stop, matching results are
equal. -/
theorem Matches.eq {x y : EStateM.Result Stop Session α}
    (hsessions : ∀ {s t}, A.sessions s t → t = s) (hexcused : ∀ {e}, ¬ A.excused e)
    (hstops : ∀ {e s f t}, A.stops e s f t → f = e ∧ t = s) (h : Matches A Eq x y) : y = x := by
  cases x with
  | ok a s =>
    cases y with
    | ok b t => rw [← h.1, hsessions h.2]
    | error f t => exact h.elim
  | error e s =>
    cases y with
    | ok b t => exact absurd h hexcused
    | error f t =>
      obtain ⟨rfl, rfl⟩ := hstops (h.resolve_left hexcused)
      rfl

theorem related_pure {a : α} {b : β} (h : values a b) : Related A values (pure a) (pure b) :=
  fun _ _ hst => ⟨h, hst⟩

theorem related_throw {e f : Stop} (h : ∀ s t, A.sessions s t → A.stops e s f t) :
    Related A values (throw e) (throw f) :=
  fun s t hst => .inr (h s t hst)

theorem related_fail {fault fault' : Fault} {n n' k k' : Int}
    (h : ∀ s t, A.sessions s t →
      A.stops (.failed ⟨fault, n, k⟩) s (.failed ⟨fault', n', k'⟩) t) :
    Related A values (fail fault n k) (fail fault' n' k') :=
  related_throw h

/-- Two results that go on in corresponding ways. -/
theorem Matches.bind {values' : γ → δ → Prop} {x : Step α} {y : Step β} {f : α → Step γ}
    {g : β → Step δ} {s t : Session} (h : Matches A values (x s) (y t))
    (hfg : ∀ a b, values a b → Related A values' (f a) (g b)) :
    Matches A values' ((x >>= f) s) ((y >>= g) t) := by
  show Matches A values' (EStateM.bind x f s) (EStateM.bind y g t)
  unfold EStateM.bind
  revert h
  cases x s with
  | ok a s' =>
    cases y t with
    | ok b t' => exact fun h => hfg a b h.1 s' t' h.2
    | error f t' => exact False.elim
  | error e s' =>
    cases y t with
    | ok b t' => exact fun h => matches_of_excused rfl h _
    | error f t' => exact id

/-- Related steps followed by related steps are related. -/
theorem Related.bind {values' : γ → δ → Prop} {x : Step α} {y : Step β} {f : α → Step γ}
    {g : β → Step δ} (h : Related A values x y)
    (hfg : ∀ a b, values a b → Related A values' (f a) (g b)) :
    Related A values' (x >>= f) (y >>= g) :=
  fun s t hst => (h s t hst).bind hfg

/-- Steps that are related for stronger values are related for weaker ones. -/
theorem Related.mono {values' : α → β → Prop} {x : Step α} {y : Step β}
    (h : Related A values x y) (hv : ∀ a b, values a b → values' a b) :
    Related A values' x y := by
  intro s t hst
  have hxy := h s t hst
  revert hxy
  cases x s with
  | ok a s' =>
    cases y t with
    | ok b t' => exact fun hxy => ⟨hv a b hxy.1, hxy.2⟩
    | error f t' => exact id
  | error e s' =>
    cases y t with
    | ok b t' => exact id
    | error f t' => exact id

end Step

end RobotMaze

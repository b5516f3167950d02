import RobotMaze.Proofs.Run.Parallel
import Mathlib.Data.Finset.Card
import Mathlib.Logic.Function.Iterate

/-!
# Iterations of a loop

Some iterations of a loop go on to the next: the condition holds and the body neither fails nor ends
the run.  A loop whose iterations all go on exceeds every cap, and so does a loop that comes back to
where it was.

* `Exec.iterate` — an iteration that goes on;
* `Exec.rounds_meet` — two loops with different caps do the same, or the first exceeds its cap;
* `Exec.after_of_returning` — a loop that comes back to where it was goes on for ever;
* `Exec.rounds_exceed` — and exceeds its cap.
-/

namespace RobotMaze.Exec

open Step

/-! ## Iterations -/

/-- The session after an iteration that goes on. -/
def iterate (test : Step Bool) (body : Step Flow) (s : Session) : Option Session :=
  match test s with
  | .ok true t =>
    match body t with
    | .ok .halt _ => none
    | .ok _ u => some u
    | .error _ _ => none
  | _ => none

/-- The session after `k` iterations that go on. -/
def after (f : Session → Option Session) (k : Nat) (s : Session) : Option Session :=
  (fun o => o.bind f)^[k] (some s)

theorem after_succ (f : Session → Option Session) (k : Nat) (s : Session) :
    after f (k + 1) s = (after f k s).bind f :=
  Function.iterate_succ_apply' _ _ _

theorem after_succ_of {f : Session → Option Session} {s t : Session} (h : f s = some t) (k : Nat) :
    after f (k + 1) s = after f k t := by
  rw [after, Function.iterate_succ_apply, Option.bind_some, h, after]

variable {test test' : Step Bool} {body body' : Step Flow} {s t u : Session} {flow : Flow}

theorem iterate_of (htest : test s = .ok true t) (hbody : body t = .ok flow u)
    (hflow : flow ≠ .halt) : iterate test body s = some u := by
  unfold iterate
  rw [htest]
  dsimp only
  rw [hbody]
  cases flow with
  | halt => exact absurd rfl hflow
  | next => rfl
  | jump line => rfl

theorem iterate_eq_some (h : iterate test body s = some u) :
    ∃ t flow, test s = .ok true t ∧ body t = .ok flow u ∧ flow ≠ .halt := by
  unfold iterate at h
  split at h
  · next t htest =>
    split at h
    · cases h
    · next flow v hne hbody =>
      cases h
      exact ⟨t, flow, htest, hbody, hne⟩
    · cases h
  · cases h

/-- Loops that correspond make corresponding iterations. -/
theorem iterate_related {A : Accord} (htest : Related A Eq test test')
    (hbody : Related A Eq body body') (hst : A.sessions s t) (h : iterate test body s = some u) :
    ∃ v, iterate test' body' t = some v ∧ A.sessions u v := by
  obtain ⟨s', flow, hs', hu, hflow⟩ := iterate_eq_some h
  have hvalue := htest s t hst
  rw [hs'] at hvalue
  cases ht' : test' t with
  | error e t' =>
    rw [ht'] at hvalue
    exact hvalue.elim
  | ok value t' =>
    rw [ht'] at hvalue
    obtain ⟨rfl, hst'⟩ := hvalue
    have hgoes := hbody s' t' hst'
    rw [hu] at hgoes
    cases hv : body' t' with
    | error e v =>
      rw [hv] at hgoes
      exact hgoes.elim
    | ok flow' v =>
      rw [hv] at hgoes
      obtain ⟨rfl, huv⟩ := hgoes
      exact ⟨v, iterate_of ht' hv hflow, huv⟩

/-! ## Rounds -/

variable {exit exit' : Flow} {cap cap' n n' : Int} {granted granted' i : Nat}

theorem rounds_of_error {e : Stop} (h : test s = .error e t) :
    rounds test body exit cap n (granted + 1) i s = .error e t :=
  bind_of_error h

theorem rounds_of_false (h : test s = .ok false t) :
    rounds test body exit cap n (granted + 1) i s = .ok exit t :=
  bind_of_ok h

theorem rounds_of_spent (h : test s = .ok true t) (hi : Spent cap i) :
    rounds test body exit cap n (granted + 1) i s = .error (exceeded cap n) t := by
  rw [rounds, bind_of_ok h, if_pos rfl, if_pos hi]
  rfl

/-- What comes of an iteration comes of the loop, unless it goes on to the next. -/
theorem rounds_of_not_spent (h : test s = .ok true t) (hi : ¬ Spent cap i) :
    rounds test body exit cap n (granted + 1) i s = match body t with
      | .error e u => .error e u
      | .ok .halt u => .ok .halt u
      | .ok _ u => rounds test body exit cap n granted (i + 1) u := by
  rw [rounds, bind_of_ok h, if_pos rfl, if_neg hi]
  cases hbody : body t with
  | error e u => exact bind_of_error hbody
  | ok flow u =>
    rw [bind_of_ok hbody]
    cases flow with
    | halt => rfl
    | next => rfl
    | jump line => rfl

theorem rounds_of_iterate (h : iterate test body s = some u) (hi : ¬ Spent cap i) :
    rounds test body exit cap n (granted + 1) i s
      = rounds test body exit cap n granted (i + 1) u := by
  obtain ⟨t, flow, htest, hbody, hflow⟩ := iterate_eq_some h
  rw [rounds_of_not_spent htest hi, hbody]
  cases flow with
  | halt => exact absurd rfl hflow
  | next => rfl
  | jump line => rfl

/-- **Two loops with different caps do the same, or the first exceeds its cap**, after as many
iterations of the second as it allows. -/
theorem rounds_meet {A : Accord} {values : Flow → Flow → Prop}
    (hdiagonal : ∀ {s t}, A.sessions s t → t = s) (htest : Related A Eq test test')
    (hbody : Related A Eq body body') (hexit : values exit exit') (hhalt : values .halt .halt)
    (hpos : 0 < cap) (hcap : cap ≤ cap') (hi : i ≤ cap) (hgranted : cap < i + granted)
    (hgranted' : cap' < i + granted') (hs : A.sessions s s) :
    Matches A values (rounds test body exit cap n granted i s)
        (rounds test' body' exit' cap' n' granted' i s) ∨
      (∃ u, rounds test body exit cap n granted i s = .error (exceeded cap n) u) ∧
        ∀ j : Nat, i + j ≤ cap →
          ∃ t, after (iterate test' body') j s = some t ∧ A.sessions t t := by
  induction granted generalizing granted' i s with
  | zero => omega
  | succ granted ih =>
    obtain ⟨k, rfl⟩ : ∃ k, granted' = k + 1 := ⟨granted' - 1, by omega⟩
    rcases (htest s s hs).diagonal hdiagonal with ⟨value, t, ht, ht', hst⟩ | ⟨e, t, ht, hfails⟩
    · cases value with
      | false =>
        rw [rounds_of_false ht, rounds_of_false ht']
        exact .inl ⟨hexit, hst⟩
      | true =>
        by_cases hspent : Spent cap i
        · have hle : cap ≤ i := hspent.2
          refine .inr ⟨⟨t, rounds_of_spent ht hspent⟩, fun j hj => ?_⟩
          rw [show j = 0 from by omega]
          exact ⟨s, rfl, hs⟩
        · have hmore : (i : Int) < cap := Int.not_le.1 fun hle => hspent ⟨hpos, hle⟩
          have hspent' : ¬ Spent cap' i := fun h => by
            have hle : cap' ≤ i := h.2
            omega
          rcases (hbody t t hst).diagonal hdiagonal with
            ⟨flow, u, hu, hu', hsu⟩ | ⟨e, u, hu, hfails⟩
          · by_cases hflow : flow = .halt
            · subst hflow
              rw [rounds_of_not_spent ht hspent, rounds_of_not_spent ht' hspent', hu, hu']
              exact .inl ⟨hhalt, hsu⟩
            · have hnext := iterate_of ht hu hflow
              have hnext' := iterate_of ht' hu' hflow
              rw [rounds_of_iterate hnext hspent, rounds_of_iterate hnext' hspent']
              refine (ih (by omega) (by omega) (by omega) hsu).imp_right fun hright => ?_
              refine ⟨hright.1, fun j hj => ?_⟩
              cases j with
              | zero => exact ⟨s, rfl, hs⟩
              | succ j =>
                rw [after_succ_of hnext']
                exact hright.2 j (by omega)
          · rw [rounds_of_not_spent ht hspent, hu]
            refine .inl (hfails _ fun f v hv => ?_)
            rw [rounds_of_not_spent ht' hspent', hv]
    · rw [rounds_of_error ht]
      exact .inl (hfails _ fun f v hv => rounds_of_error hv)

/-- A loop whose iterations all go on exceeds its cap. -/
theorem rounds_exceed (hlive : ∀ k, ∃ t, after (iterate test body) k s = some t) (hpos : 0 < cap)
    (hi : i ≤ cap) (hgranted : cap < i + granted) :
    ∃ u, rounds test body exit cap n granted i s = .error (exceeded cap n) u := by
  induction granted generalizing i s with
  | zero => omega
  | succ granted ih =>
    obtain ⟨u, hu⟩ := hlive 1
    have hstep : iterate test body s = some u := hu
    by_cases hspent : Spent cap i
    · obtain ⟨t, flow, htest, -⟩ := iterate_eq_some hstep
      exact ⟨t, rounds_of_spent htest hspent⟩
    · rw [rounds_of_iterate hstep hspent]
      have hmore : (i : Int) < cap := Int.not_le.1 fun hle => hspent ⟨hpos, hle⟩
      refine ih (fun k => ?_) (by omega) (by omega)
      rw [← after_succ_of hstep]
      exact hlive (k + 1)

/-! ## Coming back -/

/-- **A loop that comes back to where it was goes on for ever.**  Where it is is told by a value out
of a finite set, and there are more iterations than values. -/
theorem after_of_returning {α : Type} {f : Session → Option Session}
    (same : Session → Session → Prop) (htrans : ∀ {s t u}, same s t → same t u → same s u)
    (hf : ∀ {s t u}, same s t → f s = some u → ∃ v, f t = some v ∧ same u v)
    (inv : Session → Prop) (core : Session → α) {cores : Finset α}
    (hcore : ∀ {s}, inv s → core s ∈ cores)
    (hsame : ∀ {s t}, inv s → inv t → core s = core t → same s t)
    {s : Session} (h : ∀ j ≤ cores.card, ∃ t, after f j s = some t ∧ inv t) (k : Nat) :
    ∃ t, after f k s = some t := by
  have : Inhabited Session := ⟨{}⟩
  choose! x hx hinv using h
  -- two of the first sessions are alike
  obtain ⟨a, b, hab, hb, hxab⟩ : ∃ a b, a < b ∧ b ≤ cores.card ∧ same (x a) (x b) := by
    have hmaps : Set.MapsTo (core ∘ x) (Finset.range (cores.card + 1)) cores := by
      intro j hj
      exact hcore (hinv j (Nat.le_of_lt_succ (by simpa using hj)))
    obtain ⟨a, ha, b, hb, hne, hab⟩ :=
      Finset.exists_ne_map_eq_of_card_lt_of_maps_to (by simp) hmaps
    rw [Finset.mem_range, Nat.lt_succ_iff] at ha hb
    rcases Nat.lt_or_gt_of_ne hne with hlt | hlt
    · exact ⟨a, b, hlt, hb, hsame (hinv a ha) (hinv b hb) hab⟩
    · exact ⟨b, a, hlt, ha, hsame (hinv b hb) (hinv a ha) hab.symm⟩
  -- every session is like one before the second of them
  have hlike : ∀ k, ∃ t j, j < b ∧ after f k s = some t ∧ same (x j) t := by
    intro k
    induction k with
    | zero =>
      have hs := hx 0 (by omega)
      exact ⟨x 0, 0, by omega, hs, hsame (hinv 0 (by omega)) (hinv 0 (by omega)) rfl⟩
    | succ k ih =>
      obtain ⟨t, j, hj, ht, hsame⟩ := ih
      have hnext : f (x j) = some (x (j + 1)) := by
        have hsucc := hx (j + 1) (by omega)
        rwa [after_succ, hx j (by omega), Option.bind_some] at hsucc
      obtain ⟨t', ht', hsame'⟩ := hf hsame hnext
      have hafter : after f (k + 1) s = some t' := by rw [after_succ, ht, Option.bind_some, ht']
      by_cases hjb : j + 1 < b
      · exact ⟨t', j + 1, hjb, hafter, hsame'⟩
      · rw [show j + 1 = b from by omega] at hsame'
        exact ⟨t', a, hab, hafter, htrans hxab hsame'⟩
  obtain ⟨t, -, -, ht, -⟩ := hlike k
  exact ⟨t, ht⟩

end RobotMaze.Exec

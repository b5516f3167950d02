import RobotMaze.Maze.Path
import Mathlib.Tactic.Common

/-!
# Correctness of the path search

A trail `Leads` away from a start if it is a walk through free cells.  The search keeps its queue in
two layers: trails of `k` steps, then trails of `k + 1` steps.  `Layered` says that every cell fewer
than `k` steps away was expanded and that the cells `k` steps away were expanded or still wait in
the first layer, so the first trail that ends at the goal is a shortest one.

* `Path.search_answers` — what the search finds is a shortest trail, and it gives up only if no
  trail leads to the goal;
* `Path.search_ne_unfinished` — the search ends: no cell is expanded twice, and each leaves at most
  four trails in the queue.
-/

namespace RobotMaze.Path

/-! ## Trails through free cells -/

/-- Two points differ by one step. -/
def Neighbour (p q : Point) : Prop := ∃ d ∈ steps, q = p + d

/-- A trail is a walk from `start` through free cells. -/
inductive Leads (free : Point → Bool) (start : Point) : Trail → Prop where
  | start (h : free start = true) : Leads free start ⟨start, []⟩
  | extend {t : Trail} {p : Point} (ht : Leads free start t) (hn : Neighbour t.here p)
      (hp : free p = true) : Leads free start (t.extend p)

variable {free : Point → Bool} {start goal : Point}

/-- A trail ends on a free cell. -/
theorem Leads.free_here {t : Trail} (h : Leads free start t) : free t.here = true := by
  cases h with
  | start h => exact h
  | extend _ _ hp => exact hp

/-- A trail starts on a free cell. -/
theorem Leads.free_start {t : Trail} (h : Leads free start t) : free start = true := by
  induction h with
  | start h => exact h
  | extend _ _ _ ih => exact ih

@[simp] theorem here_extend (t : Trail) (p : Point) : (t.extend p).here = p := rfl

@[simp] theorem length_back_extend (t : Trail) (p : Point) :
    (t.extend p).back.length = t.back.length + 1 := rfl

theorem length_points (t : Trail) : t.points.length = t.back.length + 1 := by
  simp [Trail.points]

/-- The trails that a trail leads to end on its free neighbours that were not expanded. -/
theorem mem_onward_iff {visited : List Point} {t u : Trail} :
    u ∈ onward free visited t ↔
      ∃ p, Neighbour t.here p ∧ free p = true ∧ p ∉ visited ∧ u = t.extend p := by
  simp only [onward, Neighbour, List.mem_map, List.mem_filter, Bool.and_eq_true, Bool.not_eq_true',
    List.contains_eq_mem, decide_eq_false_iff_not]
  constructor
  · rintro ⟨p, ⟨⟨d, hd, rfl⟩, hfree, hnew⟩, rfl⟩
    exact ⟨_, ⟨d, hd, rfl⟩, hfree, hnew, rfl⟩
  · rintro ⟨p, ⟨d, hd, rfl⟩, hfree, hnew, rfl⟩
    exact ⟨_, ⟨⟨d, hd, rfl⟩, hfree, hnew⟩, rfl⟩

/-! ## Layers of the queue -/

/-- The state of a search whose queue holds the trails `now` of `k` steps and then the trails `next`
of `k + 1` steps. -/
structure Layered (free : Point → Bool) (start goal : Point) (k : Nat) (now next : List Trail)
    (visited : List Point) : Prop where
  leads_now : ∀ t ∈ now, Leads free start t ∧ t.back.length = k
  leads_next : ∀ t ∈ next, Leads free start t ∧ t.back.length = k + 1
  nearer : ∀ t, Leads free start t → t.back.length < k → t.here ∈ visited
  layer : ∀ t, Leads free start t → t.back.length = k →
    t.here ∈ visited ∨ ∃ u ∈ now, u.here = t.here
  frontier : ∀ p ∈ visited, ∀ q, Neighbour p q → free q = true →
    q ∈ visited ∨ ∃ u ∈ now ++ next, u.here = q
  goal_unvisited : goal ∉ visited

/-- At the beginning the queue holds the start. -/
theorem layered_start (h : free start = true) (goal : Point) :
    Layered free start goal 0 [⟨start, []⟩] [] [] where
  leads_now t ht := by
    rw [List.mem_singleton] at ht
    subst ht
    exact ⟨.start h, rfl⟩
  leads_next t ht := absurd ht List.not_mem_nil
  nearer t _ hlt := absurd hlt (Nat.not_lt_zero _)
  layer t ht hlen := by
    right
    cases ht with
    | start _ => exact ⟨_, List.mem_singleton_self _, rfl⟩
    | extend _ _ _ => simp at hlen
  frontier p hp := absurd hp List.not_mem_nil
  goal_unvisited := List.not_mem_nil

/-- When the first layer is used up, the second becomes the first. -/
theorem Layered.rotate {k : Nat} {next : List Trail} {visited : List Point}
    (h : Layered free start goal k [] next visited) :
    Layered free start goal (k + 1) next [] visited where
  leads_now := h.leads_next
  leads_next t ht := absurd ht List.not_mem_nil
  nearer t ht hlt := by
    by_cases hk : t.back.length < k
    · exact h.nearer t ht hk
    · simpa using h.layer t ht (by omega)
  layer t ht hlen := by
    cases ht with
    | start _ => simp at hlen
    | @extend u p hu hn hp =>
      have hulen : u.back.length = k := by simpa using hlen
      have hu' : u.here ∈ visited := by simpa using h.layer u hu hulen
      simpa using h.frontier u.here hu' p hn hp
  frontier p hp q hn hq := by simpa using h.frontier p hp q hn hq
  goal_unvisited := h.goal_unvisited

/-- A trail to a cell that was expanded before can be dropped. -/
theorem Layered.drop {k : Nat} {t : Trail} {now next : List Trail} {visited : List Point}
    (h : Layered free start goal k (t :: now) next visited) (ht : t.here ∈ visited) :
    Layered free start goal k now next visited where
  leads_now u hu := h.leads_now u (List.mem_cons_of_mem _ hu)
  leads_next := h.leads_next
  nearer := h.nearer
  layer u hu hlen := by
    rcases h.layer u hu hlen with hv | ⟨v, hv, hvu⟩
    · exact .inl hv
    · rcases List.mem_cons.1 hv with rfl | hv
      · exact .inl (hvu ▸ ht)
      · exact .inr ⟨v, hv, hvu⟩
  frontier p hp q hn hq := by
    rcases h.frontier p hp q hn hq with hv | ⟨v, hv, hvq⟩
    · exact .inl hv
    · rcases List.mem_cons.1 hv with rfl | hv
      · exact .inl (hvq ▸ ht)
      · exact .inr ⟨v, hv, hvq⟩
  goal_unvisited := h.goal_unvisited

/-- Expanding the first trail moves its end to the visited cells and puts the trails onward into the
second layer. -/
theorem Layered.expand {k : Nat} {t : Trail} {now next : List Trail} {visited : List Point}
    (h : Layered free start goal k (t :: now) next visited) (ht : t.here ≠ goal) :
    Layered free start goal k now (next ++ onward free (t.here :: visited) t)
      (t.here :: visited) := by
  obtain ⟨hlead, hlen⟩ := h.leads_now t List.mem_cons_self
  refine ⟨?_, ?_, ?_, ?_, ?_, ?_⟩
  · exact fun u hu => h.leads_now u (List.mem_cons_of_mem _ hu)
  · intro u hu
    rcases List.mem_append.1 hu with hu | hu
    · exact h.leads_next u hu
    · obtain ⟨p, hn, hp, -, rfl⟩ := mem_onward_iff.1 hu
      exact ⟨.extend hlead hn hp, by simp [hlen]⟩
  · exact fun u hu hlt => List.mem_cons_of_mem _ (h.nearer u hu hlt)
  · intro u hu hulen
    rcases h.layer u hu hulen with hv | ⟨v, hv, hvu⟩
    · exact .inl (List.mem_cons_of_mem _ hv)
    · rcases List.mem_cons.1 hv with rfl | hv
      · exact .inl (hvu ▸ List.mem_cons_self)
      · exact .inr ⟨v, hv, hvu⟩
  · intro p hp q hn hq
    by_cases hqv : q ∈ t.here :: visited
    · exact .inl hqv
    right
    rcases List.mem_cons.1 hp with rfl | hp
    · refine ⟨t.extend q, ?_, rfl⟩
      have : t.extend q ∈ onward free (t.here :: visited) t :=
        mem_onward_iff.2 ⟨q, hn, hq, hqv, rfl⟩
      simp [this]
    · rcases h.frontier p hp q hn hq with hv | ⟨v, hv, hvq⟩
      · exact absurd (List.mem_cons_of_mem _ hv) hqv
      · rw [List.cons_append] at hv
        rcases List.mem_cons.1 hv with rfl | hv
        · exact absurd (hvq ▸ List.mem_cons_self) hqv
        · refine ⟨v, ?_, hvq⟩
          rw [← List.append_assoc]
          exact List.mem_append_left _ hv
  · intro hgoal
    rcases List.mem_cons.1 hgoal with hgoal | hgoal
    · exact ht hgoal.symm
    · exact h.goal_unvisited hgoal

/-- The first trail of the queue can be taken to stand in the first layer. -/
theorem Layered.front {k : Nat} {now next : List Trail} {visited : List Point} {t : Trail}
    {queue : List Trail} (h : Layered free start goal k now next visited)
    (hq : now ++ next = t :: queue) :
    ∃ k now next, queue = now ++ next ∧ Layered free start goal k (t :: now) next visited := by
  cases now with
  | nil =>
    rw [List.nil_append] at hq
    subst hq
    exact ⟨k + 1, queue, [], by simp, h.rotate⟩
  | cons u now =>
    rw [List.cons_append, List.cons.injEq] at hq
    obtain ⟨rfl, rfl⟩ := hq
    exact ⟨k, now, next, rfl, h⟩

/-- When the queue is used up, all that can be reached was expanded. -/
theorem Layered.here_mem_visited {k : Nat} {visited : List Point}
    (h : Layered free start goal k [] [] visited) {t : Trail} (ht : Leads free start t) :
    t.here ∈ visited := by
  induction ht with
  | start hs =>
    by_cases hk : k = 0
    · simpa using h.layer ⟨start, []⟩ (.start hs) (by simp [hk])
    · exact h.nearer ⟨start, []⟩ (.start hs) (by simp only [List.length_nil]; omega)
  | extend _ hn hp ih => simpa using h.frontier _ ih _ hn hp

/-! ## What the search answers -/

/-- An answer of the search is right: a trail that was found is a shortest one, and the search was
exhausted only if there is none. -/
def Answers (free : Point → Bool) (start goal : Point) : Search → Prop
  | .found points => ∃ t, Leads free start t ∧ t.here = goal ∧ t.points = points ∧
      ∀ u, Leads free start u → u.here = goal → t.back.length ≤ u.back.length
  | .exhausted => ∀ u, Leads free start u → u.here ≠ goal
  | .unfinished => True

/-- The search answers right from every state that is in layers. -/
theorem Layered.search_answers (fuel : Nat) {k : Nat} {now next : List Trail}
    {visited : List Point} (h : Layered free start goal k now next visited) :
    Answers free start goal (search free goal fuel (now ++ next) visited) := by
  induction fuel generalizing k now next visited with
  | zero =>
    cases hq : now ++ next with
    | nil =>
      obtain ⟨rfl, rfl⟩ := List.append_eq_nil_iff.1 hq
      rw [search]
      intro u hu hgoal
      exact h.goal_unvisited (hgoal ▸ h.here_mem_visited hu)
    | cons t queue =>
      rw [search]
      trivial
  | succ fuel ih =>
    cases hq : now ++ next with
    | nil =>
      obtain ⟨rfl, rfl⟩ := List.append_eq_nil_iff.1 hq
      rw [search]
      intro u hu hgoal
      exact h.goal_unvisited (hgoal ▸ h.here_mem_visited hu)
    | cons t queue =>
      obtain ⟨k', now', next', rfl, h'⟩ := h.front hq
      obtain ⟨hlead, hlen⟩ := h'.leads_now t List.mem_cons_self
      rw [search]
      by_cases hgoal : t.here = goal
      · rw [if_pos hgoal]
        refine ⟨t, hlead, hgoal, rfl, ?_⟩
        intro u hu hugoal
        by_contra hshort
        exact h'.goal_unvisited (hugoal ▸ h'.nearer u hu (by omega))
      · rw [if_neg hgoal]
        by_cases hv : visited.contains t.here = true
        · rw [if_pos hv]
          exact ih (h'.drop (by simpa using hv))
        · rw [if_neg hv]
          show Answers free start goal (search free goal fuel
            (now' ++ next' ++ onward free (t.here :: visited) t) (t.here :: visited))
          rw [List.append_assoc]
          exact ih (h'.expand hgoal)

/-- **The search is right.**  From a free start it finds a shortest trail to the goal, or none
leads there, or it ran out of fuel. -/
theorem search_answers (fuel : Nat) (h : free start = true) :
    Answers free start goal (search free goal fuel [⟨start, []⟩] []) :=
  (layered_start h goal).search_answers fuel

/-! ## The search ends -/

/-- The number of cells of a list that were not expanded. -/
def unvisited (cells visited : List Point) : Nat :=
  cells.countP fun p => decide (p ∉ visited)

/-- Expanding a cell of the list leaves at least one cell less. -/
theorem unvisited_cons_lt {cells visited : List Point} {p : Point} (hp : p ∈ cells)
    (hv : p ∉ visited) : unvisited cells (p :: visited) < unvisited cells visited := by
  induction cells with
  | nil => cases hp
  | cons c cells ih =>
    unfold unvisited at ih ⊢
    rw [List.countP_cons, List.countP_cons]
    by_cases hc : c = p
    · subst hc
      have hle : cells.countP (fun q => decide (q ∉ c :: visited))
          ≤ cells.countP fun q => decide (q ∉ visited) := by
        apply List.countP_mono_left
        intro q _ hq
        rw [decide_eq_true_eq] at hq ⊢
        exact fun hqv => hq (List.mem_cons_of_mem _ hqv)
      rw [if_neg (by simp), if_pos (by simpa using hv)]
      omega
    · have hp' : p ∈ cells := (List.mem_cons.1 hp).resolve_left (Ne.symm hc)
      have hcong : decide (c ∉ p :: visited) = decide (c ∉ visited) := by simp [hc]
      have := ih hp'
      rw [hcong]
      omega

theorem length_onward_le (free : Point → Bool) (visited : List Point) (t : Trail) :
    (onward free visited t).length ≤ 4 := by
  unfold onward
  rw [List.length_map]
  exact Nat.le_trans (List.length_filter_le _ _) (by simp [steps])

/-- **The search ends.**  With all free cells in a list, one unit of fuel for each trail in the
queue and four for each cell that was not expanded are enough. -/
theorem search_ne_unfinished {cells : List Point} (hcells : ∀ p, free p = true → p ∈ cells)
    (fuel : Nat) {queue : List Trail} {visited : List Point}
    (hqueue : ∀ t ∈ queue, free t.here = true)
    (hfuel : queue.length + 4 * unvisited cells visited ≤ fuel) :
    search free goal fuel queue visited ≠ .unfinished := by
  induction fuel generalizing queue visited with
  | zero =>
    have hnil : queue = [] := List.eq_nil_of_length_eq_zero (by omega)
    subst hnil
    rw [search]
    simp
  | succ fuel ih =>
    cases queue with
    | nil =>
      rw [search]
      simp
    | cons t queue =>
      rw [List.length_cons] at hfuel
      have hrest : ∀ u ∈ queue, free u.here = true := fun u hu =>
        hqueue u (List.mem_cons_of_mem _ hu)
      rw [search]
      by_cases hgoal : t.here = goal
      · rw [if_pos hgoal]
        simp
      · rw [if_neg hgoal]
        by_cases hv : visited.contains t.here = true
        · rw [if_pos hv]
          exact ih hrest (by omega)
        · rw [if_neg hv]
          have hlt := unvisited_cons_lt (hcells _ (hqueue t List.mem_cons_self))
            (by simpa using hv : t.here ∉ visited)
          have hle := length_onward_le free (t.here :: visited) t
          refine ih ?_ (by rw [List.length_append]; omega)
          intro u hu
          rcases List.mem_append.1 hu with hu | hu
          · exact hrest u hu
          · obtain ⟨p, -, hp, -, rfl⟩ := mem_onward_iff.1 hu
            exact hp

end RobotMaze.Path

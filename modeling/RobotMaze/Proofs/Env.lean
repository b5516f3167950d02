import Mathlib.Data.List.Sort
import RobotMaze.Env

/-!
# Environments in order

An environment that is made by setting variables has its names in order, each of them once.  So it
is known by the values of its variables, and other names can be put in the place of its own.

* `Env.Ordered.ext` — environments in order with the same variables are equal;
* `Env.renamed` — an environment with other names;
* `Env.renamed_set` — setting a variable under its other name.
-/

namespace RobotMaze

namespace Env

/-- The names of the environment are in order, each of them once. -/
def Ordered (env : Env) : Prop := env.entries.Pairwise fun e f => e.1 < f.1

theorem ordered_empty : Ordered {} := .nil

/-! ## Setting keeps the order -/

/-- A name among the entries is the one that is set or was there before. -/
theorem mem_setIn {name : Text} {value : Bool} {e : Text × Bool} {entries : List (Text × Bool)}
    (h : e ∈ setIn name value entries) : e = (name, value) ∨ e ∈ entries := by
  induction entries with
  | nil => exact .inl (List.mem_singleton.1 h)
  | cons f rest ih =>
    rw [setIn] at h
    split at h
    · rcases List.mem_cons.1 h with rfl | h
      · exact .inl rfl
      · exact .inr (List.mem_cons_of_mem _ h)
    · split at h
      · exact List.mem_cons.1 h
      · rcases List.mem_cons.1 h with rfl | h
        · exact .inr List.mem_cons_self
        · exact (ih h).imp_right (List.mem_cons_of_mem _)

theorem pairwise_setIn (name : Text) (value : Bool) {entries : List (Text × Bool)}
    (h : entries.Pairwise fun e f => e.1 < f.1) :
    (setIn name value entries).Pairwise fun e f => e.1 < f.1 := by
  induction entries with
  | nil => exact List.pairwise_singleton _ _
  | cons e rest ih =>
    obtain ⟨hhead, htail⟩ := List.pairwise_cons.1 h
    rw [setIn]
    split
    · next hname =>
      subst hname
      exact List.pairwise_cons.2 ⟨hhead, htail⟩
    · next hname =>
      split
      · next hbefore =>
        have hlt : name < e.1 := of_decide_eq_true hbefore
        refine List.pairwise_cons.2 ⟨?_, h⟩
        intro f hf
        rcases List.mem_cons.1 hf with rfl | hf
        · exact hlt
        · exact List.lt_trans hlt (hhead f hf)
      · next hbefore =>
        have hle : ¬ name < e.1 := fun hlt => hbefore (decide_eq_true hlt)
        have hlt : e.1 < name := Std.lt_of_le_of_ne hle hname
        refine List.pairwise_cons.2 ⟨?_, ih htail⟩
        intro f hf
        rcases mem_setIn hf with rfl | hf
        · exact hlt
        · exact hhead f hf

theorem Ordered.set {env : Env} (h : env.Ordered) (name : Text) (value : Bool) :
    (env.set name value).Ordered :=
  pairwise_setIn name value h

/-! ## Environments with the same variables -/

/-- The variables of an environment in order are its entries. -/
theorem Ordered.get?_eq_some {env : Env} (h : env.Ordered) {name : Text} {value : Bool} :
    env.get? name = some value ↔ (name, value) ∈ env.entries := by
  obtain ⟨entries⟩ := env
  show entries.lookup name = some value ↔ (name, value) ∈ entries
  constructor
  · intro hlookup
    obtain ⟨before, behind, rfl, -⟩ := List.lookup_eq_some_iff.1 hlookup
    exact List.mem_append_right _ List.mem_cons_self
  · intro hmem
    obtain ⟨before, behind, rfl⟩ := List.mem_iff_append.1 hmem
    refine List.lookup_eq_some_iff.2 ⟨before, behind, rfl, fun e he => ?_⟩
    have hlt : e.1 < name := (List.pairwise_append.1 h).2.2 e he _ List.mem_cons_self
    exact bne_iff_ne.2 fun heq => List.lt_irrefl name (heq ▸ hlt)

/-- **Environments in order with the same variables are equal.** -/
theorem Ordered.ext {env env' : Env} (h : env.Ordered) (h' : env'.Ordered)
    (hget : ∀ name, env.get? name = env'.get? name) : env = env' := by
  have : Std.Irrefl fun e f : Text × Bool => e.1 < f.1 := ⟨fun e => List.lt_irrefl e.1⟩
  have : Std.Antisymm fun e f : Text × Bool => e.1 < f.1 :=
    ⟨fun e f hlt hgt => absurd hgt (List.lt_asymm hlt)⟩
  have hmem : ∀ e, e ∈ env.entries ↔ e ∈ env'.entries := by
    intro e
    rw [← h.get?_eq_some, ← h'.get?_eq_some, hget]
  have hentries : env.entries = env'.entries := List.Pairwise.eq_of_mem_iff h h' hmem
  exact congrArg Env.mk hentries

/-! ## Other names -/

/-- The environment with its names replaced by their images. -/
def renamed (texts : Text → Text) (env : Env) : Env :=
  env.entries.foldr (fun e rest => rest.set (texts e.1) e.2) {}

variable {texts : Text → Text}

theorem ordered_renamed (texts : Text → Text) (env : Env) : (env.renamed texts).Ordered := by
  obtain ⟨entries⟩ := env
  unfold renamed
  induction entries with
  | nil => exact ordered_empty
  | cons e rest ih => exact ih.set _ _

/-- A variable has its value under its other name. -/
theorem get?_renamed (hinj : texts.Injective) (env : Env) (name : Text) :
    (env.renamed texts).get? (texts name) = env.get? name := by
  obtain ⟨entries⟩ := env
  unfold renamed
  induction entries with
  | nil => rfl
  | cons e rest ih =>
    show (Env.set _ (texts e.1) e.2).get? (texts name) = List.lookup name ((e.1, e.2) :: rest)
    rw [get?_set, lookup_cons, ih]
    simp only [hinj.eq_iff]
    rfl

/-- There are no other variables than those with other names. -/
theorem get?_renamed_of_ne {name : Text} (h : ∀ old, name ≠ texts old) (env : Env) :
    (env.renamed texts).get? name = none := by
  obtain ⟨entries⟩ := env
  unfold renamed
  induction entries with
  | nil => rfl
  | cons e rest ih =>
    show (Env.set _ (texts e.1) e.2).get? name = none
    rw [get?_set, if_neg (h e.1), ih]

/-- **Setting a variable and then renaming sets the other name.** -/
theorem renamed_set (hinj : texts.Injective) (env : Env) (name : Text) (value : Bool) :
    (env.set name value).renamed texts = (env.renamed texts).set (texts name) value := by
  refine (ordered_renamed _ _).ext ((ordered_renamed _ _).set _ _) fun other => ?_
  by_cases hold : ∃ old, other = texts old
  · obtain ⟨old, rfl⟩ := hold
    rw [get?_set, get?_renamed hinj, get?_renamed hinj, get?_set]
    simp only [hinj.eq_iff]
  · have hne : ∀ old, other ≠ texts old := fun old h => hold ⟨old, h⟩
    rw [get?_set, get?_renamed_of_ne hne, get?_renamed_of_ne hne, if_neg (hne name)]

theorem Ordered.renamed_id {env : Env} (h : env.Ordered) : env.renamed id = env :=
  (ordered_renamed _ _).ext h (get?_renamed Function.injective_id env)

end Env

end RobotMaze

import RobotMaze.Text

/-!
# Environments

The boolean variables of a run.  There is one flat scope; entries are kept in the byte order of
their names, each name once, so that two environments with the same variables are equal.
-/

namespace RobotMaze

/-- The variables of a run with their values. -/
structure Env where
  entries : List (Text × Bool) := []
  deriving DecidableEq, Repr

namespace Env

/-- The entries with one of them set. -/
def setIn (name : Text) (value : Bool) : List (Text × Bool) → List (Text × Bool)
  | [] => [(name, value)]
  | e :: rest =>
    if e.1 = name then (name, value) :: rest
    else if Text.before name e.1 then (name, value) :: e :: rest
    else e :: setIn name value rest

/-- The environment with a variable set. -/
def set (env : Env) (name : Text) (value : Bool) : Env := ⟨setIn name value env.entries⟩

/-- The value of a variable. -/
def get? (env : Env) (name : Text) : Option Bool := env.entries.lookup name

/-- The number of variables. -/
def size (env : Env) : Nat := env.entries.length

/-- The names of the variables in byte order. -/
def names (env : Env) : List Text := env.entries.map (·.1)

/-- The variables with their values between brackets. -/
def text (env : Env) : Text :=
  "map[" ++ Text.join " " (env.entries.map fun e => e.1 ++ ":" ++ Text.ofBool e.2) ++ "]"

/-! ## Looking variables up -/

/-- Looking a name up among entries tries the first one first. -/
theorem lookup_cons (name other : Text) (value : Bool) (rest : List (Text × Bool)) :
    ((name, value) :: rest).lookup other
      = if other = name then some value else rest.lookup other := by
  by_cases h : other = name
  · subst h
    rw [List.lookup_cons, beq_self_eq_true, if_pos rfl]
  · rw [List.lookup_cons, beq_eq_false_iff_ne.2 h, if_neg h]

/-- Setting an entry changes the value of its name and no other. -/
theorem lookup_setIn (name : Text) (value : Bool) (other : Text) (entries : List (Text × Bool)) :
    (setIn name value entries).lookup other
      = if other = name then some value else entries.lookup other := by
  induction entries with
  | nil => exact lookup_cons name other value []
  | cons e rest ih =>
    obtain ⟨n, v⟩ := e
    by_cases hn : n = name
    · subst hn
      rw [setIn, if_pos rfl, lookup_cons, lookup_cons]
      by_cases h : other = n <;> simp [h]
    · rw [setIn, if_neg hn]
      by_cases hb : Text.before name n
      · rw [if_pos hb, lookup_cons]
      · rw [if_neg hb, lookup_cons, lookup_cons, ih]
        by_cases h : other = n
        · subst h
          rw [if_pos rfl, if_pos rfl, if_neg hn]
        · rw [if_neg h, if_neg h]

/-- Setting a variable changes its own value and no other. -/
@[simp] theorem get?_set (env : Env) (name other : Text) (value : Bool) :
    (env.set name value).get? other = if other = name then some value else env.get? other :=
  lookup_setIn name value other env.entries

end Env

end RobotMaze

import RobotMaze.Proofs.Expr.Terms
import Mathlib.Data.List.SplitBy

/-!
# The meaning of expressions

That `AND` binds tighter than `OR` is nowhere in the shape of an expression.  It shows when the
chain is cut at its `OR`s into groups, of which one has to be true as a whole, or when a tree is put
over the chain that has no `OR` below an `AND`.  Both give the value that evaluation along the chain
gives, as long as all terms have values; if some have none, then the first of them decides, also
where the value would be known without it.

* `Expr.groups` — the terms between neighbouring `OR`s;
* `Expr.evalTail_eq` and `Expr.eval_eq` — evaluation along the chain is evaluation of the groups;
* `Expr.Tree` — trees over chains, and `Expr.Tree.run`, which leaves out what is not needed;
* `Expr.Tree.Tight.run_eq` — a tree with tight `AND`s has the value of the groups;
* `Expr.eval_means_groups` — all of it together.
-/

namespace RobotMaze

/-! ## Values and errors of terms -/

namespace Operand

/-- Whether a term is true. -/
def truth (s : Scene) (o : Operand) : Bool := decide (o.term.eval s = .ok true)

/-- Why a term has no value. -/
def error? (s : Scene) (o : Operand) : Option Error :=
  match o.term.eval s with
  | .ok _ => none
  | .error err => some err

variable {s : Scene} {o : Operand}

theorem error?_eq_some_iff {err : Error} : o.error? s = some err ↔ o.term.eval s = .error err := by
  unfold error?
  cases o.term.eval s with
  | ok value => simp
  | error err' => simp

theorem error?_eq_none_iff : o.error? s = none ↔ o.term.eval s = .ok (o.truth s) := by
  unfold error? truth
  cases o.term.eval s with
  | ok value => cases value <;> simp
  | error err => simp

theorem error?_eq_none_of_ok {value : Bool} (h : o.term.eval s = .ok value) :
    o.error? s = none := by
  rw [error?, h]

end Operand

/-- A term that was read has no value if it is a name that was never set, or a sensor and there is
no maze. -/
theorem Term.Readable.eval_eq_error_iff {s : Scene} {t : Term} {err : Error} (ht : t.Readable) :
    t.eval s = .error err ↔
      (∃ x, t = .name x ∧ s.env.get? x = none ∧ err = ⟨.undeclared x, s.line, 0⟩) ∨
      ∃ word sensor, t = .sensor word ∧ Kind.ofWord? word = some (.sensor sensor) ∧
        s.maze = none ∧ err = ⟨.noMaze (.sensor sensor), s.line, 0⟩ := by
  cases t with
  | literal word => simp [Term.eval]
  | blank => exact ht.elim
  | name word =>
    simp only [Term.eval]
    cases hget : s.env.get? word with
    | none => simp [hget, eq_comm]
    | some value => simp [hget]
  | sensor word =>
    obtain ⟨sensor, hsensor⟩ := ht
    simp only [Term.eval, Scene.sense, hsensor, Option.getD_some]
    cases s.maze with
    | none => simp [hsensor, eq_comm]
    | some m => simp

namespace Expr

/-! ## Groups -/

/-- The terms of an expression with what stands before each.  The first one starts a group, as a
term behind `OR` does. -/
def links (e : Expr) : List (Connective × Operand) := (.or, e.head) :: e.tail

/-- The terms of an expression from left to right. -/
def operands (e : Expr) : List Operand := e.links.map Prod.snd

/-- Whether a term is in the same group as the one before it. -/
def joins (_ link : Connective × Operand) : Bool := link.1 == .and

/-- The longest rows of terms with no `OR` between them. -/
def groups (e : Expr) : List (List Operand) := (e.links.splitBy joins).map (List.map Prod.snd)

/-- Some row of terms between neighbouring `OR`s is true as a whole. -/
def holds (s : Scene) (links : List (Connective × Operand)) : Bool :=
  (links.splitBy joins).any fun group => group.all fun link => link.2.truth s

variable {s : Scene} {group tail : List (Connective × Operand)} {o : Operand}

/-- A row of terms with no `OR` between them is one group. -/
theorem holds_group (hne : group ≠ []) (hgroup : group.IsChain fun a b => joins a b = true) :
    holds s group = group.all fun link => link.2.truth s := by
  rw [holds, List.splitBy_of_isChain hne hgroup, List.any_cons, List.any_nil, Bool.or_false]

/-- An `OR` separates groups. -/
theorem holds_append (before : List (Connective × Operand)) (o : Operand)
    (tail : List (Connective × Operand)) :
    holds s (before ++ (.or, o) :: tail) = (holds s before || holds s ((.or, o) :: tail)) := by
  unfold holds
  rw [List.splitBy_append_cons tail (by intro link _; rfl), List.any_append]

/-- Evaluation along a chain is evaluation of its groups, of which `group` is the one that was begun
and `value` tells about those before. -/
theorem evalTail_eq (value : Bool) (hne : group ≠ [])
    (hgroup : group.IsChain fun a b => joins a b = true) :
    evalTail s value (group.all fun link => link.2.truth s) tail
      = match (tail.map Prod.snd).findSome? (Operand.error? s) with
        | some err => .error err
        | none => .ok (value || holds s (group ++ tail)) := by
  induction tail generalizing value group with
  | nil =>
    rw [List.append_nil, holds_group hne hgroup]
    rfl
  | cons link rest ih =>
    obtain ⟨c, o⟩ := link
    rw [evalTail, List.map_cons, List.findSome?_cons]
    cases herror : o.error? s with
    | some err =>
      rw [Operand.error?_eq_some_iff.1 herror]
      rfl
    | none =>
      rw [Operand.error?_eq_none_iff.1 herror]
      cases c with
      | or =>
        -- the group is complete, and the term begins the next one
        have hnext := @ih [(.or, o)] (value || group.all fun link => link.2.truth s)
          (List.cons_ne_nil _ _) (.singleton _)
        rw [holds_append, holds_group hne hgroup, ← Bool.or_assoc]
        simpa [bind, Except.bind] using hnext
      | and =>
        have hjoined : (group ++ [(Connective.and, o)]).IsChain fun a b => joins a b = true := by
          refine List.isChain_append.2 ⟨hgroup, .singleton _, ?_⟩
          intro a _ b hb
          cases hb
          rfl
        have hnext := @ih (group ++ [(.and, o)]) value (by simp) hjoined
        rw [List.append_assoc, List.singleton_append] at hnext
        simpa [bind, Except.bind] using hnext

/-- The value of an expression is that of its groups, unless a term has no value: then the first
such term decides. -/
theorem eval_eq (s : Scene) (e : Expr) :
    e.eval s = match e.operands.findSome? (Operand.error? s) with
      | some err => .error err
      | none => .ok (holds s e.links) := by
  have htail := @evalTail_eq s [(.or, e.head)] e.tail false (List.cons_ne_nil _ _) (.singleton _)
  rw [eval, operands, links, List.map_cons, List.findSome?_cons]
  cases herror : e.head.error? s with
  | some err =>
    rw [Operand.error?_eq_some_iff.1 herror]
    rfl
  | none =>
    rw [Operand.error?_eq_none_iff.1 herror]
    simpa [bind, Except.bind] using htail

/-! ## Trees -/

/-- A tree over a chain of terms. -/
inductive Tree where
  | leaf (o : Operand)
  | node (c : Connective) (left right : Tree)
  deriving DecidableEq, Repr

namespace Tree

/-- The terms of a tree from left to right with what stands before each; `c` stands before the
first. -/
def links (c : Connective) : Tree → List (Connective × Operand)
  | leaf o => [(c, o)]
  | node c' left right => left.links c ++ right.links c'

/-- The tree stands over the chain of an expression. -/
def Over (t : Tree) (e : Expr) : Prop := t.links .or = e.links

/-- All connectives of the tree are `AND`. -/
def OnlyAnd : Tree → Prop
  | leaf _ => True
  | node .and left right => left.OnlyAnd ∧ right.OnlyAnd
  | node .or _ _ => False

/-- `AND` binds tighter than `OR`: no `OR` stands below an `AND`. -/
def Tight : Tree → Prop
  | leaf _ => True
  | node .and left right => left.OnlyAnd ∧ right.OnlyAnd
  | node .or left right => left.Tight ∧ right.Tight

/-- Evaluates a tree from left to right, but no more of it than is needed. -/
def run (s : Scene) : Tree → Except Error Bool
  | leaf o => o.term.eval s
  | node .and left right => do
    if ← left.run s then right.run s else return false
  | node .or left right => do
    if ← left.run s then return true else right.run s

/-- The first term of a tree. -/
def first : Tree → Operand
  | leaf o => o
  | node _ left _ => left.first

/-- What stands before the first term of a tree. -/
theorem exists_links (t : Tree) (c : Connective) : ∃ rest, t.links c = (c, t.first) :: rest := by
  induction t generalizing c with
  | leaf o => exact ⟨[], rfl⟩
  | node c' left right ihLeft _ =>
    obtain ⟨rest, hrest⟩ := ihLeft c
    exact ⟨rest ++ right.links c', by rw [links, hrest]; rfl⟩

theorem links_ne_nil (t : Tree) (c : Connective) : t.links c ≠ [] := by
  obtain ⟨rest, hrest⟩ := t.exists_links c
  rw [hrest]
  exact List.cons_ne_nil _ _

/-- A tree without `OR` stands over one group. -/
theorem OnlyAnd.isChain {t : Tree} (h : t.OnlyAnd) (c : Connective) :
    (t.links c).IsChain fun a b => joins a b = true := by
  induction t generalizing c with
  | leaf o => exact .singleton _
  | node c' left right ihLeft ihRight =>
    cases c' with
    | or => exact h.elim
    | and =>
      refine List.isChain_append.2 ⟨ihLeft h.1 c, ihRight h.2 .and, ?_⟩
      intro a _ b hb
      obtain ⟨rest, hrest⟩ := right.exists_links .and
      rw [hrest] at hb
      cases hb
      rfl

variable {s : Scene}

/-- If all terms have values, a tree without `OR` is true if all of them are. -/
theorem OnlyAnd.run_eq {t : Tree} (h : t.OnlyAnd) (c : Connective)
    (hvalues : ∀ link ∈ t.links c, link.2.error? s = none) :
    t.run s = .ok ((t.links c).all fun link => link.2.truth s) := by
  induction t generalizing c with
  | leaf o =>
    have ho := Operand.error?_eq_none_iff.1 (hvalues (c, o) List.mem_cons_self)
    simpa [run, links] using ho
  | node c' left right ihLeft ihRight =>
    cases c' with
    | or => exact h.elim
    | and =>
      have hleft := ihLeft h.1 c fun link hlink => hvalues link (List.mem_append_left _ hlink)
      have hright := ihRight h.2 .and fun link hlink => hvalues link (List.mem_append_right _ hlink)
      rw [run, hleft, hright, links, List.all_append]
      cases (left.links c).all fun link => link.2.truth s <;> rfl

/-- **A tree with tight `AND`s means its groups**, if all terms have values. -/
theorem Tight.run_eq {t : Tree} (h : t.Tight) (c : Connective)
    (hvalues : ∀ link ∈ t.links c, link.2.error? s = none) :
    t.run s = .ok (holds s (t.links c)) := by
  induction t generalizing c with
  | leaf o =>
    have honly : OnlyAnd (leaf o) := trivial
    rw [honly.run_eq c hvalues, holds_group (links_ne_nil _ c) (honly.isChain c)]
  | node c' left right ihLeft ihRight =>
    cases c' with
    | and =>
      have honly : OnlyAnd (node .and left right) := h
      rw [honly.run_eq c hvalues, holds_group (links_ne_nil _ c) (honly.isChain c)]
    | or =>
      have hleft := ihLeft h.1 c fun link hlink => hvalues link (List.mem_append_left _ hlink)
      have hright := ihRight h.2 .or fun link hlink => hvalues link (List.mem_append_right _ hlink)
      obtain ⟨rest, hrest⟩ := right.exists_links .or
      rw [run, hleft, hright, links, hrest, holds_append]
      cases holds s (left.links c) <;> rfl

end Tree

/-- A link is hung on a tree from the right: behind `AND` below the last `OR`, behind `OR` on top.
-/
def Tree.hang (t : Tree) : Connective × Operand → Tree
  | (.or, o) => node .or t (leaf o)
  | (.and, o) =>
    match t with
    | node .or left right => node .or left (node .and right (leaf o))
    | t => node .and t (leaf o)

/-- The tree over the chain of an expression, with both connectives associating to the left. -/
def tree (e : Expr) : Tree := e.tail.foldl Tree.hang (.leaf e.head)

namespace Tree

/-- A tree that is hung from the right: a tree of `AND`s, or one to the right of an `OR`. -/
inductive Hung : Tree → Prop where
  | group {t : Tree} (h : t.OnlyAnd) : Hung t
  | groups {left right : Tree} (hleft : left.Tight) (hright : right.OnlyAnd) :
      Hung (.node .or left right)

theorem OnlyAnd.tight {t : Tree} (h : t.OnlyAnd) : t.Tight := by
  cases t with
  | leaf o => trivial
  | node c left right =>
    cases c with
    | and => exact h
    | or => exact h.elim

theorem Hung.tight {t : Tree} (h : t.Hung) : t.Tight := by
  cases h with
  | group h => exact h.tight
  | groups hleft hright => exact ⟨hleft, hright.tight⟩

theorem Hung.hang {t : Tree} (h : t.Hung) (link : Connective × Operand) : (t.hang link).Hung := by
  obtain ⟨c, o⟩ := link
  cases c with
  | or => exact .groups h.tight trivial
  | and =>
    cases h with
    | groups hleft hright => exact .groups hleft ⟨hright, trivial⟩
    | group honly =>
      cases t with
      | leaf o' => exact .group ⟨trivial, trivial⟩
      | node c' left right =>
        cases c' with
        | or => exact honly.elim
        | and => exact .group ⟨honly, trivial⟩

theorem links_hang (t : Tree) (link : Connective × Operand) (c : Connective) :
    (t.hang link).links c = t.links c ++ [link] := by
  obtain ⟨c', o⟩ := link
  cases c' with
  | or => rfl
  | and =>
    cases t with
    | leaf o' => rfl
    | node c'' left right =>
      cases c'' with
      | or => simp [hang, links]
      | and => rfl

theorem hung_foldl {t : Tree} (h : t.Hung) (tail : List (Connective × Operand)) (c : Connective) :
    (tail.foldl hang t).Hung ∧ (tail.foldl hang t).links c = t.links c ++ tail := by
  induction tail generalizing t with
  | nil => exact ⟨h, by simp⟩
  | cons link rest ih =>
    obtain ⟨hhung, hlinks⟩ := ih (h.hang link)
    refine ⟨hhung, ?_⟩
    rw [List.foldl_cons, hlinks, links_hang, List.append_assoc]
    rfl

end Tree

/-- There is a tree with tight `AND`s over every chain. -/
theorem tree_tight_over (e : Expr) : e.tree.Tight ∧ e.tree.Over e := by
  obtain ⟨hhung, hlinks⟩ := @Tree.hung_foldl (.leaf e.head) (.group trivial) e.tail .or
  exact ⟨hhung.tight, hlinks⟩

/-! ## Meaning -/

theorem holds_links_iff (s : Scene) (e : Expr) :
    holds s e.links = true ↔ ∃ group ∈ e.groups, ∀ o ∈ group, o.term.eval s = .ok true := by
  simp only [holds, Operand.truth, List.any_eq_true, List.all_eq_true, decide_eq_true_eq]
  constructor
  · rintro ⟨group, hgroup, htrue⟩
    refine ⟨group.map Prod.snd, List.mem_map_of_mem hgroup, ?_⟩
    intro o ho
    obtain ⟨link, hlink, rfl⟩ := List.mem_map.1 ho
    exact htrue link hlink
  · rintro ⟨_, hmem, htrue⟩
    obtain ⟨group, hgroup, rfl⟩ := List.mem_map.1 hmem
    exact ⟨group, hgroup, fun link hlink => htrue link.2 (List.mem_map_of_mem hlink)⟩

/-- All terms have values, or some term is the first that has none. -/
theorem values_or_first (s : Scene) (os : List Operand) :
    (os.findSome? (Operand.error? s) = none ∧ ∀ o ∈ os, ∃ value, o.term.eval s = .ok value) ∨
      ∃ before o after err, os = before ++ o :: after ∧
        (∀ o' ∈ before, ∃ value, o'.term.eval s = .ok value) ∧ o.term.eval s = .error err ∧
          os.findSome? (Operand.error? s) = some err := by
  have hvalues : ∀ {os : List Operand}, (∀ o ∈ os, o.error? s = none) →
      ∀ o ∈ os, ∃ value, o.term.eval s = .ok value :=
    fun hos o ho => ⟨_, Operand.error?_eq_none_iff.1 (hos o ho)⟩
  cases hfirst : os.findSome? (Operand.error? s) with
  | none => exact .inl ⟨rfl, hvalues (List.findSome?_eq_none_iff.1 hfirst)⟩
  | some err =>
    obtain ⟨before, o, after, hsplit, ho, hbefore⟩ := List.findSome?_eq_some_iff.1 hfirst
    exact .inr ⟨before, o, after, err, hsplit, hvalues hbefore, Operand.error?_eq_some_iff.1 ho,
      rfl⟩

theorem Readable.operand {e : Expr} (h : e.Readable) {o : Operand} (ho : o ∈ e.operands) :
    o.term.Readable := by
  obtain ⟨link, hlink, rfl⟩ := List.mem_map.1 ho
  rcases List.mem_cons.1 hlink with rfl | hlink
  · exact h.head
  · exact h.tail link hlink

/-- **`AND` binds tighter than `OR`, and no term is left out.**  If all terms have values, an
expression is true exactly if all terms of one of its groups are, which is also what the evaluation
of a tree with tight `AND`s gives that leaves out what is not needed.  If some term has no value,
the error is that of the first such term; in an expression that was read, this is a name without a
value or a sensor without a maze. -/
theorem eval_means_groups (e : Expr) (s : Scene) :
    ((∀ o ∈ e.operands, ∃ value, o.term.eval s = .ok value) →
        ∃ value, e.eval s = .ok value ∧
          (value = true ↔ ∃ group ∈ e.groups, ∀ o ∈ group, o.term.eval s = .ok true) ∧
          (∃ t : Tree, t.Tight ∧ t.Over e) ∧
          ∀ t : Tree, t.Tight → t.Over e → t.run s = .ok value) ∧
      ((∃ o ∈ e.operands, ∃ err, o.term.eval s = .error err) →
        ∃ before o after err, e.operands = before ++ o :: after ∧
          (∀ o' ∈ before, ∃ value, o'.term.eval s = .ok value) ∧
          o.term.eval s = .error err ∧ e.eval s = .error err) ∧
      ∀ tokens line, ofTokens tokens line = .ok e → ∀ o ∈ e.operands, ∀ err,
        o.term.eval s = .error err ↔
          (∃ x, o.term = .name x ∧ s.env.get? x = none ∧ err = ⟨.undeclared x, s.line, 0⟩) ∨
          ∃ word sensor, o.term = .sensor word ∧ Kind.ofWord? word = some (.sensor sensor) ∧
            s.maze = none ∧ err = ⟨.noMaze (.sensor sensor), s.line, 0⟩ := by
  refine ⟨?_, ?_, ?_⟩
  · intro hvalues
    have hnone : ∀ o ∈ e.operands, o.error? s = none := by
      intro o ho
      obtain ⟨value, hvalue⟩ := hvalues o ho
      exact Operand.error?_eq_none_of_ok hvalue
    refine ⟨holds s e.links, ?_, holds_links_iff s e, ⟨e.tree, e.tree_tight_over⟩, ?_⟩
    · rw [eval_eq, List.findSome?_eq_none_iff.2 hnone]
    · intro t ht hover
      have hrun := ht.run_eq (s := s) .or
      rw [hover] at hrun
      exact hrun fun link hlink => hnone link.2 (List.mem_map_of_mem hlink)
  · rintro ⟨o, ho, err, herr⟩
    rcases values_or_first s e.operands with ⟨-, hvalues⟩ |
      ⟨before, first, after, err', hsplit, hbefore, hfirst, hfound⟩
    · obtain ⟨value, hvalue⟩ := hvalues o ho
      cases herr.symm.trans hvalue
    · exact ⟨before, first, after, err', hsplit, hbefore, hfirst, by rw [eval_eq, hfound]⟩
  · intro tokens line hread o ho err
    exact ((readable_of_ofTokens hread).operand ho).eval_eq_error_iff

-- a name without a value is missed even where the tree has no need for it
example :
    let e : Expr := ⟨⟨.literal "TRUE", 0⟩, [(.or, ⟨.name "x", 8⟩)]⟩
    e.eval {} = .error ⟨.undeclared "x", 0, 0⟩ ∧ e.tree.run {} = .ok true := by decide

end Expr

end RobotMaze

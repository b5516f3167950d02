import RobotMaze.Expr.Eval
import RobotMaze.Expr.Parse
import Mathlib.Tactic.Common

/-!
# The terms of expressions

An expression that was read from words has three sorts of terms: truth values, names, and the words
of sensors.  In a maze such an expression has a value, unless one of its names was never set.

* `Expr.readable_of_ofTokens` — every term that was read is of one of the three sorts;
* `Expr.eval_eq_error` — the error of an expression is the error of one of its terms;
* `Expr.Readable.eval_eq_error` — in a maze it is that of a name without a value.
-/

namespace RobotMaze

/-- A term that a word can stand for. -/
def Term.Readable : Term → Prop
  | literal _ => True
  | sensor word => ∃ sensor, Kind.ofWord? word = some (.sensor sensor)
  | name _ => True
  | blank => False

theorem Term.Readable.eval_eq_error {s : Scene} {m : Maze} {t : Term} {err : Error}
    (ht : t.Readable) (hm : s.maze = some m) (h : t.eval s = .error err) :
    ∃ x, err = ⟨.undeclared x, s.line, 0⟩ := by
  cases t with
  | literal word => cases h
  | sensor word =>
    obtain ⟨sensor, hsensor⟩ := ht
    simp only [Term.eval, Scene.sense, hsensor, Option.getD_some, hm] at h
    cases h
  | name word =>
    simp only [Term.eval] at h
    split at h
    · cases h
    · cases h
      exact ⟨word, rfl⟩
  | blank => exact ht.elim

namespace Expr

/-- An expression whose terms words can stand for. -/
structure Readable (e : Expr) : Prop where
  head : e.head.term.Readable
  tail : ∀ link ∈ e.tail, link.2.term.Readable

/-! ## Reading -/

theorem readable_of_operand? {l : Lexeme} {o : Operand} (h : operand? l = some o) :
    o.term.Readable := by
  unfold operand? at h
  split at h
  · cases h
    trivial
  · next sensor hsensor =>
    cases h
    exact ⟨sensor, hsensor⟩
  · split at h
    · cases h
      trivial
    · cases h

theorem readable_of_parseTail {state : Expecting} {ls : List Lexeme}
    {tail : List (Connective × Operand)} (h : parseTail state ls = .ok tail) :
    ∀ link ∈ tail, link.2.term.Readable := by
  induction ls generalizing state tail with
  | nil =>
    cases state with
    | operator =>
      cases h
      simp
    | afterAnd => cases h
    | operand c => cases h
  | cons l ls ih =>
    -- wherever the reader takes a term, the rest is read behind an operator
    have hterm : ∀ {c : Connective} {o : Operand}, operand? l = some o →
        (parseTail .operator ls).map ((c, o) :: ·) = .ok tail →
        ∀ link ∈ tail, link.2.term.Readable := by
      intro c o ho htail
      cases hrest : parseTail .operator ls with
      | error problem =>
        rw [hrest] at htail
        cases htail
      | ok rest =>
        rw [hrest] at htail
        cases htail
        exact List.forall_mem_cons.2 ⟨readable_of_operand? ho, ih hrest⟩
    cases state with
    | operator =>
      simp only [parseTail] at h
      split at h
      · exact ih h
      · split at h
        · exact ih h
        · cases h
    | afterAnd =>
      simp only [parseTail] at h
      split at h
      · exact ih h
      · split at h
        · next o ho => exact hterm ho h
        · cases h
    | operand c =>
      simp only [parseTail] at h
      split at h
      · next o ho => exact hterm ho h
      · cases h

theorem readable_of_ofLexemes {ls : List Lexeme} {e : Expr} (h : ofLexemes ls = .ok e) :
    e.Readable := by
  cases ls with
  | nil => cases h
  | cons l ls =>
    simp only [ofLexemes] at h
    split at h
    · next head hhead =>
      cases htail : parseTail .operator ls with
      | error problem =>
        rw [htail] at h
        cases h
      | ok tail =>
        rw [htail] at h
        cases h
        exact ⟨readable_of_operand? hhead, readable_of_parseTail htail⟩
    · cases h

/-- What the words of a line stand for has terms that words can stand for. -/
theorem readable_of_ofTokens {tokens : List Token} {line : Int} {e : Expr}
    (h : ofTokens tokens line = .ok e) : e.Readable := by
  cases tokens with
  | nil => cases h
  | cons first rest =>
    simp only [ofTokens, ofText] at h
    cases hscan : Lexeme.scan (Token.line (first :: rest)) with
    | error problem =>
      rw [hscan] at h
      cases h
    | ok ls =>
      rw [hscan] at h
      cases hread : ofLexemes ls with
      | error problem =>
        simp only [bind, Except.bind, hread] at h
        cases h
      | ok e' =>
        simp only [bind, Except.bind, hread] at h
        cases h
        exact readable_of_ofLexemes hread

/-! ## Errors -/

theorem evalTail_eq_error {s : Scene} {value group : Bool} {tail : List (Connective × Operand)}
    {err : Error} (h : evalTail s value group tail = .error err) :
    ∃ link ∈ tail, link.2.term.eval s = .error err := by
  induction tail generalizing value group with
  | nil => cases h
  | cons link rest ih =>
    obtain ⟨c, o⟩ := link
    cases ho : o.term.eval s with
    | error err' =>
      simp only [evalTail, bind, Except.bind, ho] at h
      cases h
      exact ⟨(c, o), List.mem_cons_self, ho⟩
    | ok v =>
      simp only [evalTail, bind, Except.bind, ho] at h
      obtain ⟨link, hlink, herr⟩ : ∃ link ∈ rest, link.2.term.eval s = .error err := by
        cases c with
        | and => exact ih h
        | or => exact ih h
      exact ⟨link, List.mem_cons_of_mem _ hlink, herr⟩

/-- The error of an expression is the error of one of its terms. -/
theorem eval_eq_error {s : Scene} {e : Expr} {err : Error} (h : e.eval s = .error err) :
    e.head.term.eval s = .error err ∨ ∃ link ∈ e.tail, link.2.term.eval s = .error err := by
  cases hhead : e.head.term.eval s with
  | error err' =>
    simp only [eval, bind, Except.bind, hhead] at h
    exact .inl h
  | ok v =>
    simp only [eval, bind, Except.bind, hhead] at h
    exact .inr (evalTail_eq_error h)

/-- In a maze an expression that was read fails only for a name that has no value. -/
theorem Readable.eval_eq_error {s : Scene} {m : Maze} {e : Expr} {err : Error} (he : e.Readable)
    (hm : s.maze = some m) (h : e.eval s = .error err) : ∃ x, err = ⟨.undeclared x, s.line, 0⟩ := by
  rcases Expr.eval_eq_error h with hhead | ⟨link, hlink, herr⟩
  · exact he.head.eval_eq_error hm hhead
  · exact (he.tail link hlink).eval_eq_error hm herr

end Expr

end RobotMaze

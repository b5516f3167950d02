import RobotMaze.Proofs.Program.Matching
import Mathlib.Data.Int.Range

/-!
# What stands behind an `END`

An `END` takes no arguments, but only the last line of a program is checked for that.  The searches
through a program look at the first word of an `END` line and at nothing behind it, so programs that
differ there have the same last line and the same blocks.

* `Program.SameButEnds` — two programs that differ only behind an `END` before their last line;
* `Program.SameButEnds.block` — their blocks are the same;
* `Program.closes_of_block` — a block is closed by the matching `END`, whatever stands on its line.
-/

namespace RobotMaze.Program

variable {p q : Program} {h n : Int}

/-! ## The matching line -/

/-- On a walk down from inside of a block the depth is never below zero, and behind it the depth is
the number of open blocks. -/
theorem depth_of_walk {k d d' : Nat} (hn : h < n) (hd : p.depth h (n - 1) = d)
    (hwalk : p.walk k n d = some d') :
    p.depth h (n + k - 1) = d' ∧ ∀ m, n ≤ m → m < n + k → 0 ≤ p.depth h m := by
  induction k generalizing n d with
  | zero =>
    cases hwalk
    refine ⟨by simpa using hd, fun m hlow hup => ?_⟩
    omega
  | succ k ih =>
    obtain ⟨i, hturn, hrest⟩ := Option.bind_eq_some_iff.1 hwalk
    have hdepth := depth_of_turn hn hd hturn
    obtain ⟨hend, hinside⟩ := @ih (n + 1) i (by omega) (by rwa [Int.add_sub_cancel]) hrest
    refine ⟨?_, fun m hlow hup => ?_⟩
    · rw [← hend]
      congr 1
      omega
    · by_cases hm : m = n
      · rw [hm, hdepth]
        exact Int.natCast_nonneg i
      · exact hinside m (by omega) (by omega)

/-- The block that is found is closed by the `END` that the depth tells. -/
theorem closes_of_block {b : Block} (hb : p.block h = .ok b) :
    ∃ last, p.last = .ok last ∧ p.Closes h last b.close := by
  obtain ⟨last, k, hlast, hfound, hbefore⟩ := block_eq_ok hb
  have hclose := hfound.close
  have hstart : p.depth h (h + 1 - 1) = (0 : Nat) := by
    rw [Int.add_sub_cancel]
    exact depth_self
  obtain ⟨hend, hinside⟩ := depth_of_walk (by omega) hstart hfound.walk
  have hafter : h < b.close := by omega
  have hdepth : p.depth h b.close = -1 := by
    rw [depth_step hafter, hclose, hend, ← hclose, lift, hfound.head]
    rfl
  refine ⟨last, hlast, ⟨hafter, hbefore, hfound.head, hdepth⟩, fun m hm => ?_⟩
  by_contra hlt
  have hnonneg := hinside m (by have := hm.after; omega) (by omega)
  rw [hm.depth] at hnonneg
  omega

/-! ## Programs that differ behind an `END` -/

/-- The first word of a line. -/
def first? (p : Program) (n : Int) : Option Token := (p.tokens n).toOption.bind List.head?

/-- Line `n` is not the last one and starts with the same `END` in both programs. -/
def SameEnd (p q : Program) (n : Int) : Prop :=
  p.last ≠ .ok n ∧ p.head? n = some .close ∧ q.first? n = p.first? n

instance : Decidable (p.SameEnd q n) := inferInstanceAs (Decidable (_ ∧ _))

/-- Two programs with the same lines, apart from what stands behind an `END` on a line before the
last. -/
structure SameButEnds (p q : Program) : Prop where
  size : q.size = p.size
  lines : ∀ n : Int, 1 ≤ n → n ≤ p.size → q.tokens n = p.tokens n ∨ p.SameEnd q n

instance : Decidable (p.SameButEnds q) :=
  decidable_of_iff (q.size = p.size ∧
      ∀ n : Int, 1 ≤ n → n ≤ p.size → q.tokens n = p.tokens n ∨ p.SameEnd q n)
    ⟨fun hpq => ⟨hpq.1, hpq.2⟩, fun hpq => ⟨hpq.size, hpq.lines⟩⟩

theorem first?_of_tokens {head : Token} {args : List Token}
    (hts : p.tokens n = .ok (head :: args)) : p.first? n = some head := by
  rw [first?, hts]
  rfl

theorem exists_of_first? {head : Token} (hhead : p.first? n = some head) :
    ∃ args, p.tokens n = .ok (head :: args) := by
  unfold first? at hhead
  cases hts : p.tokens n with
  | error e =>
    rw [hts] at hhead
    cases hhead
  | ok ts =>
    rw [hts] at hhead
    exact ⟨ts.tail, congrArg Except.ok (List.eq_cons_of_mem_head? hhead)⟩

theorem tokens_of_not_bounds (hn : ¬ (1 ≤ n ∧ n ≤ p.size)) : p.tokens n = .error .outOfRange := by
  have hline : p.line? n = none := by
    unfold line?
    split
    · exact List.getElem?_eq_none (by unfold size at hn; omega)
    · rfl
  rw [tokens, hline]

/-- What is wrong with an `OTHERWISE` line is told by the first word of the opening line. -/
theorem otherwiseFault_congr {opener opener' : List Token} (hopener : opener'.head? = opener.head?)
    (header : Int) (seen : Option Int) (line : List Token) :
    otherwiseFault opener' header seen line = otherwiseFault opener header seen line := by
  cases opener with
  | nil => rw [List.head?_eq_none_iff.1 hopener]
  | cons head args =>
    obtain ⟨args', rfl⟩ := List.head?_eq_some_iff.1 hopener
    rfl

namespace SameButEnds

/-- Both programs have the same words on a line, or the same `END` before the last line. -/
theorem tokens (hpq : p.SameButEnds q) (n : Int) :
    q.tokens n = p.tokens n ∨ p.last ≠ .ok n ∧ ∃ head args args', head.kind = .close ∧
      p.tokens n = .ok (head :: args) ∧ q.tokens n = .ok (head :: args') := by
  by_cases hn : 1 ≤ n ∧ n ≤ p.size
  · refine (hpq.lines n hn.1 hn.2).imp_right ?_
    rintro ⟨hlast, hclose, hsame⟩
    obtain ⟨head, args, hts, hkind⟩ := exists_of_head? hclose
    obtain ⟨args', hts'⟩ := exists_of_first? (hsame.trans (first?_of_tokens hts))
    exact ⟨hlast, head, args, args', hkind, hts, hts'⟩
  · rw [tokens_of_not_bounds hn, tokens_of_not_bounds (by rwa [hpq.size])]
    exact .inl rfl

theorem lastUpTo (hpq : p.SameButEnds q) (k : Nat) : q.lastUpTo k = p.lastUpTo k := by
  induction k with
  | zero => rfl
  | succ k ih =>
    rw [lastUpTo_succ, lastUpTo_succ, ih]
    rcases hpq.tokens (k + 1) with hsame | ⟨-, head, args, args', -, hts, hts'⟩
    · rw [hsame]
    · rw [hts, hts']
      rfl

/-- The last line is the same. -/
theorem last (hpq : p.SameButEnds q) : q.last = p.last := by
  rw [Program.last, hpq.size, hpq.lastUpTo, Program.last]

/-- The words of the last line are the same. -/
theorem tokens_last (hpq : p.SameButEnds q) {last : Int} (hlast : p.last = .ok last) :
    q.tokens last = p.tokens last :=
  (hpq.tokens last).resolve_right fun hend => hend.1 hlast

theorem ends (hpq : p.SameButEnds q) {last : Int} (hends : p.Ends last) : q.Ends last := by
  refine ⟨hpq.last.trans hends.isLast, ?_⟩
  rw [hpq.tokens_last hends.isLast]
  exact hends.close

/-- The search for the end of a block goes on in the same way. -/
theorem closeFrom (hpq : p.SameButEnds q) {opener opener' : List Token}
    (hopener : opener'.head? = opener.head?) (header : Int) (count : Nat) (n : Int) (d : Nat)
    (seen : Option Int) :
    q.closeFrom opener' header count n d seen = p.closeFrom opener header count n d seen := by
  induction count generalizing n d seen with
  | zero =>
    rw [closeFrom_zero, closeFrom_zero]
    cases opener with
    | nil => rw [List.head?_eq_none_iff.1 hopener]
    | cons head args =>
      obtain ⟨args', rfl⟩ := List.head?_eq_some_iff.1 hopener
      rfl
  | succ count ih =>
    rw [closeFrom_succ, closeFrom_succ]
    rcases hpq.tokens n with hsame | ⟨-, head, args, args', hclose, hts, hts'⟩
    · simp only [hsame, ih, otherwiseFault_congr hopener]
    · rw [hts, hts']
      simp only [bind, Except.bind, hclose]
      cases d with
      | zero => rfl
      | succ d => exact ih _ _ _

/-- **The blocks are the same**: the search reads nothing behind an `END`. -/
theorem block (hpq : p.SameButEnds q) (n : Int) : q.block n = p.block n := by
  rw [block_eq, block_eq, hpq.last]
  rcases hpq.tokens n with hsame | ⟨-, head, args, args', -, hts, hts'⟩
  · simp only [hsame, hpq.closeFrom rfl]
  · have hopener : (head :: args').head? = (head :: args).head? := rfl
    rw [hts, hts']
    cases p.last with
    | error e => rfl
    | ok last => exact hpq.closeFrom hopener _ _ _ _ _

end SameButEnds

end RobotMaze.Program

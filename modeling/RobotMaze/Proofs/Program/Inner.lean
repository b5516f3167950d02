import RobotMaze.Proofs.Program.Matching

/-!
# Blocks inside of blocks

The search that finds the end of a block has read every line on its way, and it has looked at every
`OTHERWISE` at the level of the block.  So nothing is left that could go wrong with a block inside
of it but an `OTHERWISE` of the inner block; and the lines between the opener, the `OTHERWISE` and
the `END` of a block hold nothing at its own level but statements.

* `Program.Scanned` — what the search has seen on its way to the end of a block;
* `Program.endsWithin_of_walk` — a block inside of another one ends there, or is refused for an
  `OTHERWISE` of its own;
* `Program.Body` — lines that hold nothing but whole statements;
* `Program.body_chosen` — the lines that a branch picks are such lines;
* `Program.Outer` — a line behind all the blocks that are opened before it.
-/

namespace RobotMaze

/-- Whether a fault is an `OTHERWISE` that may not stand in its block, or not like this. -/
def Fault.isOtherwise : Fault → Bool
  | otherwiseArguments => true
  | otherwiseOutsideBranch => true
  | duplicateOtherwise _ => true
  | _ => false

theorem Fault.origin_of_isOtherwise {fault : Fault} (h : fault.isOtherwise = true) :
    fault.origin = .source := by
  cases fault <;> first | rfl | cases h

namespace Program

variable {p : Program} {header n m stop : Int} {head : Token} {args : List Token} {b : Block}
  {kind : Kind}

/-! ## Walks -/

theorem turn_of_otherwise (h : p.head? n = some .otherwise) (d : Nat) : p.turn n d = some d := by
  unfold turn
  rw [h]

theorem turn_of_close (h : p.head? n = some .close) (d : Nat) : p.turn n (d + 1) = some d := by
  unfold turn
  rw [h]

theorem walk_succ {d d' : Nat} (h : p.turn n d = some d') (k : Nat) :
    p.walk (k + 1) n d = p.walk k (n + 1) d' := by
  rw [walk, h, Option.bind_some]

/-- Blocks that are open from the start stay open on a walk that does not need them. -/
theorem walk_shift {k i i' : Nat} (h : p.walk k n i = some i') (d : Nat) :
    p.walk k n (i + d) = some (i' + d) := by
  induction k generalizing n i with
  | zero =>
    obtain rfl : i = i' := Option.some.inj h
    rfl
  | succ k ih =>
    rw [walk] at h
    obtain ⟨j, hturn, hrest⟩ := Option.bind_eq_some_iff.1 h
    rw [walk_succ (turn_add hturn d)]
    exact ih hrest

/-- A walk over a block comes back to the level of the line that opens it. -/
theorem walk_block (hhead : p.head? n = some kind) (hopens : kind.opensBlock = true)
    (hb : p.block n = .ok b) :
    ∃ k : Nat, b.close + 1 = n + k ∧ p.walk k n 0 = some 0 := by
  obtain ⟨-, k, -, hfound, -⟩ := block_eq_ok hb
  have hclose := hfound.close
  have hinside : p.walk k (n + 1) 1 = some 1 := by simpa using walk_shift hfound.walk 1
  have hend : p.turn (n + 1 + k) 1 = some 0 := turn_of_close (by rw [← hclose]; exact hfound.head) 0
  refine ⟨k + 1 + 1, by omega, ?_⟩
  rw [walk_succ (turn_of_opensBlock hhead hopens 0), walk_add, hinside, Option.bind_some,
    walk_succ hend]
  rfl

/-! ## What the search has seen -/

/-- What the search for the end of the block `b`, opened by a line that starts with `head`, sees
from line `n` on. -/
structure Scanned (p : Program) (head : Token) (n : Int) (d : Nat) (seen : Option Int) (b : Block) :
    Prop where
  legible : ∀ m, n ≤ m → m ≤ b.close → ∃ ts, p.tokens m = .ok ts
  keeps : ∀ o, seen = some o → b.otherwise = some o
  divides : ∀ j : Nat, p.walk j n d = some 0 → n + j < b.close →
    p.head? (n + j) = some .otherwise → b.otherwise = some (n + j)
  otherwise : ∀ o, b.otherwise = some o →
    seen = some o ∨ p.head? o = some .otherwise ∧ head.kind = .branch

/-- What is seen from the next line on is seen from here. -/
theorem Scanned.step {d d' : Nat} {seen seen' : Option Int} {ts : List Token}
    (h : p.Scanned head (n + 1) d' seen' b) (hts : p.tokens n = .ok ts)
    (hturn : p.turn n d = some d') (hkeeps : ∀ o, seen = some o → seen' = some o)
    (hdivides : p.head? n = some .otherwise → d = 0 → seen' = some n)
    (hseen : ∀ o, seen' = some o →
      seen = some o ∨ p.head? o = some .otherwise ∧ head.kind = .branch) :
    p.Scanned head n d seen b where
  legible m hnm hm := by
    by_cases hsame : m = n
    · exact ⟨ts, by rw [hsame, hts]⟩
    · exact h.legible m (by omega) hm
  keeps o ho := h.keeps o (hkeeps o ho)
  divides j hj hclose hhead := by
    cases j with
    | zero =>
      obtain rfl : d = 0 := Option.some.inj hj
      rw [Int.natCast_zero, Int.add_zero] at hhead ⊢
      exact h.keeps n (hdivides hhead rfl)
    | succ j =>
      have hline : n + ((j + 1 : Nat) : Int) = n + 1 + j := by omega
      rw [walk_succ hturn] at hj
      rw [hline] at hclose hhead ⊢
      exact h.divides j hj hclose hhead
  otherwise o ho := (h.otherwise o ho).elim (hseen o) .inr

/-- Only a branch may have an `OTHERWISE`, and only one. -/
theorem otherwiseFault_eq_none {seen : Option Int} {line : List Token}
    (h : otherwiseFault (head :: args) header seen line = .ok none) :
    head.kind = .branch ∧ seen = none := by
  unfold otherwiseFault at h
  split at h
  · cases h
  · dsimp only at h
    split at h
    · cases h
    · next hbranch =>
      split at h
      · cases h
      · next hseen => exact ⟨not_not.1 hbranch, Option.not_isSome_iff_eq_none.1 hseen⟩

theorem isOtherwise_of_otherwiseFault {opener line : List Token} {seen : Option Int} {fault : Fault}
    (h : otherwiseFault opener header seen line = .ok (some fault)) : fault.isOtherwise = true := by
  unfold otherwiseFault at h
  split at h
  · cases h
    rfl
  · split at h
    · cases h
    · split at h
      · cases h
        rfl
      · split at h
        · cases h
          rfl
        · cases h

theorem scanned_of_closeFrom {count d : Nat} {seen : Option Int}
    (h : p.closeFrom (head :: args) header count n d seen = .ok b) :
    p.Scanned head n d seen b := by
  induction count generalizing n d seen with
  | zero => cases h
  | succ count ih =>
    cases hts : p.tokens n with
    | error e =>
      rw [closeFrom_succ, hts] at h
      cases h
    | ok ts =>
      rcases closeFrom_cases hts (head :: args) header count d seen with ⟨-, -, heq⟩ |
        ⟨d', hturn, hother, heq⟩ | ⟨t, rest, rfl, hkind, rfl, heq⟩
      · rw [heq] at h
        cases h
        refine ⟨?_, fun o ho => ho, ?_, fun o ho => .inl ho⟩
        · intro m hnm hm
          exact ⟨ts, by rw [← hts, Int.le_antisymm hm hnm]⟩
        · intro j _ hj
          dsimp only at hj
          omega
      · rw [heq] at h
        exact (ih h).step hts hturn (fun _ ho => ho) (fun hhead hd => absurd ⟨hhead, hd⟩ hother)
          fun _ ho => .inl ho
      · have hhead : p.head? n = some .otherwise := by rw [head?_of_tokens hts, hkind]
        rw [heq] at h
        cases hfault : otherwiseFault (head :: args) header seen (t :: rest) with
        | error e => exact (otherwiseFault_eq_error hfault).elim
        | ok found =>
          rw [hfault] at h
          cases found with
          | some fault => cases h
          | none =>
            obtain ⟨hbranch, rfl⟩ := otherwiseFault_eq_none hfault
            refine (ih h).step hts (turn_of_otherwise hhead 0) (fun o ho => by cases ho)
              (fun _ _ => rfl) ?_
            intro o ho
            cases ho
            exact .inr ⟨hhead, hbranch⟩

theorem scanned_of_block (hhead : p.head? n = some kind) (hb : p.block n = .ok b) :
    ∃ head : Token, head.kind = kind ∧ p.Scanned head (n + 1) 0 none b := by
  obtain ⟨head, args, hts, hkind⟩ := exists_of_head? hhead
  obtain ⟨last, -, hlast, -, -⟩ := block_eq_ok hb
  rw [block_eq, hlast, hts] at hb
  exact ⟨head, hkind, scanned_of_closeFrom hb⟩

/-! ## Inner blocks -/

/-- The block opened on line `n` ends before line `stop`, or it is refused because of an `OTHERWISE`
that stands between the two and breaks the rules of the source. -/
def EndsWithin (p : Program) (n stop : Int) : Prop :=
  (∃ b, p.block n = .ok b ∧ b.close < stop) ∨
    ∃ fault line, p.block n = .error (.failed ⟨fault, line, 0⟩) ∧ fault.isOtherwise = true ∧
      fault.origin = .source ∧ p.head? line = some .otherwise ∧ n < line ∧ line < stop

/-- A search for the end of a block finds it on line `close`, or it stops before, on line `n` or
behind it, at an `OTHERWISE` that breaks the rules. -/
def Resolves (p : Program) (found : Except Stop Block) (n close : Int) : Prop :=
  (∃ b, found = .ok b ∧ b.close = close) ∨
    ∃ fault line, found = .error (.failed ⟨fault, line, 0⟩) ∧ fault.isOtherwise = true ∧
      p.head? line = some .otherwise ∧ n ≤ line ∧ line < close

theorem Resolves.mono {found : Except Stop Block} {n' close : Int} (h : p.Resolves found n' close)
    (hn : n ≤ n') : p.Resolves found n close := by
  rcases h with hfound | ⟨fault, line, hfail, hfault, hhead, hlow, hup⟩
  · exact .inl hfound
  · exact .inr ⟨fault, line, hfail, hfault, hhead, Int.le_trans hn hlow, hup⟩

/-- A search that passes over lines which can be read, up to the right `END`, finds it, unless an
`OTHERWISE` on the way breaks the rules. -/
theorem closeFrom_of_walk (head : Token) (args : List Token) (header : Int) (seen : Option Int)
    {k count d : Nat} (hlegible : ∀ m, n ≤ m → m ≤ n + k → ∃ ts, p.tokens m = .ok ts)
    (hwalk : p.walk k n d = some 0) (hclose : p.head? (n + k) = some .close) (hk : k < count) :
    p.Resolves (p.closeFrom (head :: args) header count n d seen) n (n + k) := by
  induction k generalizing n count d seen with
  | zero =>
    obtain ⟨count, rfl⟩ : ∃ c, count = c + 1 := ⟨count - 1, by omega⟩
    obtain rfl : d = 0 := Option.some.inj hwalk
    obtain ⟨ts, hts⟩ := hlegible n (by omega) (by omega)
    rw [Int.natCast_zero, Int.add_zero] at hclose
    rcases closeFrom_cases hts (head :: args) header count 0 seen with ⟨-, -, heq⟩ |
      ⟨d', hturn, -, -⟩ | ⟨t, rest, rfl, hkind, -, -⟩
    · exact .inl ⟨_, heq, by simp⟩
    · rw [turn_eq_none_iff.2 ⟨hclose, rfl⟩] at hturn
      cases hturn
    · rw [head?_of_tokens hts, hkind] at hclose
      cases hclose
  | succ k ih =>
    obtain ⟨count, rfl⟩ : ∃ c, count = c + 1 := ⟨count - 1, by omega⟩
    obtain ⟨ts, hts⟩ := hlegible n (by omega) (by omega)
    rw [walk] at hwalk
    obtain ⟨d', hturn, hrest⟩ := Option.bind_eq_some_iff.1 hwalk
    have hline : n + ((k + 1 : Nat) : Int) = n + 1 + k := by omega
    rw [hline] at hclose hlegible
    -- the search behind the line, whatever it has seen
    have hnext : ∀ seen', p.Resolves (p.closeFrom (head :: args) header count (n + 1) d' seen') n
        (n + 1 + k) := by
      intro seen'
      refine (ih seen' (fun m hm => hlegible m (by omega)) hrest hclose ?_).mono (by omega)
      exact Nat.lt_of_succ_lt_succ hk
    rw [hline]
    rcases closeFrom_cases hts (head :: args) header count d seen with ⟨hhead, rfl, -⟩ |
      ⟨d'', hturn', -, heq⟩ | ⟨t, rest, rfl, hkind, rfl, heq⟩
    · rw [turn_eq_none_iff.2 ⟨hhead, rfl⟩] at hturn
      cases hturn
    · cases hturn.symm.trans hturn'
      rw [heq]
      exact hnext seen
    · have hhead : p.head? n = some .otherwise := by rw [head?_of_tokens hts, hkind]
      cases hturn.symm.trans (turn_of_otherwise hhead 0)
      rw [heq]
      cases hfault : otherwiseFault (head :: args) header seen (t :: rest) with
      | error e => exact (otherwiseFault_eq_error hfault).elim
      | ok found =>
        cases found with
        | some fault =>
          exact .inr ⟨fault, n, rfl, isOtherwise_of_otherwiseFault hfault, hhead, Int.le_refl n,
            by omega⟩
        | none => exact hnext (some n)

/-- A block that is opened on a walk which comes back to where it started ends on the walk, or is
refused for an `OTHERWISE` there. -/
theorem endsWithin_of_walk {k : Nat} {last : Int} (hlast : p.last = .ok last)
    (hwalk : p.walk k n 0 = some 0) (hstop : n + k ≤ last)
    (hlegible : ∀ m, n ≤ m → m < n + k → ∃ ts, p.tokens m = .ok ts) (hn : n ≤ m) (hm : m < n + k)
    (hhead : p.head? m = some kind) (hopens : kind.opensBlock = true) :
    p.EndsWithin m (n + k) := by
  obtain ⟨e, he, hcross, hclose⟩ := exists_close_of_walk hwalk hn hm hhead hopens
  obtain ⟨head, args, hts, -⟩ := exists_of_head? hhead
  have hblock : p.block m
      = p.closeFrom (head :: args) m (last - m - 1).toNat (m + 1) 0 none := by
    rw [block_eq, hlast, hts]
    rfl
  unfold EndsWithin
  rw [hblock]
  have hcount : e < (last - m - 1).toNat := by omega
  rcases closeFrom_of_walk head args m none (fun l hl hle => hlegible l (by omega) (by omega))
    hcross hclose hcount with ⟨b, hb, hend⟩ | ⟨fault, line, hfail, hfault, hother, hlow, hup⟩
  · exact .inl ⟨b, hb, by omega⟩
  · exact .inr ⟨fault, line, hfail, hfault, Fault.origin_of_isOtherwise hfault, hother, by omega,
      by omega⟩

/-- **Inside of a block that is found, every block ends or has an `OTHERWISE` of its own to blame**,
and before the `OTHERWISE` of the outer one if it is opened before that. -/
theorem endsWithin_of_block (hhead : p.head? n = some kind) (hb : p.block n = .ok b) (hn : n < m)
    (hm : m < b.close) {kind' : Kind} (hhead' : p.head? m = some kind')
    (hopens : kind'.opensBlock = true) :
    p.EndsWithin m b.close ∧ ∀ o, b.otherwise = some o → m < o → p.EndsWithin m o := by
  obtain ⟨last, k, hlast, hfound, hbefore⟩ := block_eq_ok hb
  obtain ⟨_, -, hscanned⟩ := scanned_of_block hhead hb
  have hclose := hfound.close
  constructor
  · rw [hclose] at hm hbefore ⊢
    exact endsWithin_of_walk hlast hfound.walk (by omega)
      (fun l hl hle => hscanned.legible l hl (by omega)) (by omega) hm hhead' hopens
  · intro o ho hmo
    rcases hfound.otherwise o ho with hnone | ⟨j, hj, rfl, hwalk⟩
    · cases hnone
    · exact endsWithin_of_walk hlast hwalk (by omega)
        (fun l hl hle => hscanned.legible l hl (by omega)) (by omega) hmo hhead' hopens

/-! ## Bodies -/

/-- The lines from `n` up to `stop` hold nothing but whole statements: every block that is opened
there ends there, and at the level of line `n` there is no `END` and no `OTHERWISE`. -/
structure Body (p : Program) (n stop : Int) : Prop where
  closed : p.Closed n stop
  plain : ∀ k : Nat, p.walk k n 0 = some 0 → n + k < stop →
    p.head? (n + k) ≠ some .close ∧ p.head? (n + k) ≠ some .otherwise

theorem Body.head_ne (h : p.Body n stop) (hn : n < stop) :
    p.head? n ≠ some .close ∧ p.head? n ≠ some .otherwise := by
  simpa using h.plain 0 rfl (by simpa using hn)

/-- What a walk at the level of its first line comes to is a body again. -/
theorem Body.of_walk {k : Nat} (h : p.Body n stop) (hwalk : p.walk k n 0 = some 0) :
    p.Body (n + k) stop where
  closed := Closed.mono h.closed (by omega)
  plain j hj hstop := by
    have hline : n + ((k + j : Nat) : Int) = n + k + j := by omega
    have hboth : p.walk (k + j) n 0 = some 0 := by rw [walk_add, hwalk, Option.bind_some, hj]
    have hplain := h.plain (k + j) hboth (by omega)
    rwa [hline] at hplain

theorem Body.next (h : p.Body n stop) (hturn : p.turn n 0 = some 0) : p.Body (n + 1) stop :=
  h.of_walk (k := 1) (by rw [walk_succ hturn]; rfl)

/-- Behind a block the body goes on. -/
theorem Body.behind (h : p.Body n stop) (hhead : p.head? n = some kind)
    (hopens : kind.opensBlock = true) (hb : p.block n = .ok b) : p.Body (b.close + 1) stop := by
  obtain ⟨k, hk, hwalk⟩ := walk_block hhead hopens hb
  rw [hk]
  exact h.of_walk hwalk

/-- Only a branch is divided. -/
theorem otherwise_of_loop (hhead : p.head? n = some .loop) (hb : p.block n = .ok b) :
    b.otherwise = none := by
  obtain ⟨head, hkind, hscanned⟩ := scanned_of_block hhead hb
  cases hother : b.otherwise with
  | none => rfl
  | some o =>
    rcases hscanned.otherwise o hother with hnone | ⟨-, hbranch⟩
    · cases hnone
    · cases hkind.symm.trans hbranch

/-- A loop repeats the lines that a branch in its place would pick. -/
theorem chosen_of_loop (hhead : p.head? n = some .loop) (hb : p.block n = .ok b) :
    b.chosen true = (n + 1, b.close) := by
  unfold Block.chosen
  rw [otherwise_of_loop hhead hb, (block_order hb).1]

/-- At the level of a block there is no `END` before its own, and no `OTHERWISE` but its own. -/
theorem plain_of_block (hhead : p.head? n = some kind) (hb : p.block n = .ok b) {j : Nat}
    (hj : p.walk j (n + 1) 0 = some 0) (hclose : n + 1 + j < b.close)
    (hother : b.otherwise ≠ some (n + 1 + j)) :
    p.head? (n + 1 + j) ≠ some .close ∧ p.head? (n + 1 + j) ≠ some .otherwise := by
  obtain ⟨-, k, -, hfound, -⟩ := block_eq_ok hb
  obtain ⟨_, -, hscanned⟩ := scanned_of_block hhead hb
  have hend := hfound.close
  constructor
  · intro hhead'
    have hsame := close_unique hj hhead' hfound.walk (by rw [← hend]; exact hfound.head)
    omega
  · intro hhead'
    exact hother (hscanned.divides j hj hclose hhead')

/-- Behind its `OTHERWISE` a block is at its own level. -/
theorem walk_otherwise (hhead : p.head? n = some kind) (hb : p.block n = .ok b) {o : Int}
    (ho : b.otherwise = some o) :
    ∃ j : Nat, o + 1 = n + 1 + j ∧ p.walk j (n + 1) 0 = some 0 := by
  obtain ⟨-, k, -, hfound, -⟩ := block_eq_ok hb
  obtain ⟨_, -, hscanned⟩ := scanned_of_block hhead hb
  rcases hfound.otherwise o ho with hnone | ⟨j, -, rfl, hwalk⟩
  · cases hnone
  rcases hscanned.otherwise _ ho with hnone | ⟨hhead', -⟩
  · cases hnone
  refine ⟨j + 1, by omega, ?_⟩
  rw [walk_add, hwalk, Option.bind_some, walk_succ (turn_of_otherwise hhead' 0)]
  rfl

/-- **The lines that a branch picks are a body.** -/
theorem body_chosen (hhead : p.head? n = some kind) (hb : p.block n = .ok b) (value : Bool) :
    p.Body (b.chosen value).1 (b.chosen value).2 := by
  refine ⟨(closed_chosen hb value).2.2.2, ?_⟩
  obtain ⟨hheader, hlt, horder⟩ := block_order hb
  intro k hwalk hstop
  unfold Block.chosen at hwalk hstop ⊢
  rw [hheader] at hwalk hstop ⊢
  cases ho : b.otherwise with
  | none =>
    cases value with
    | true =>
      simp only [ho] at hwalk hstop ⊢
      exact plain_of_block hhead hb hwalk hstop (by rw [ho]; nofun)
    | false =>
      simp only [ho] at hstop
      omega
  | some o =>
    obtain ⟨hno, hoc⟩ := horder o ho
    cases value with
    | true =>
      simp only [ho] at hwalk hstop ⊢
      refine plain_of_block hhead hb hwalk (by omega) ?_
      rw [ho]
      intro hsame
      cases hsame
      omega
    | false =>
      -- the walk from the `OTHERWISE` on continues the one from the opening line
      obtain ⟨j, hline, hwalk'⟩ := walk_otherwise hhead hb ho
      simp only [ho, hline] at hwalk hstop ⊢
      have hsum : n + 1 + (j : Int) + k = n + 1 + ((j + k : Nat) : Int) := by omega
      have hboth : p.walk (j + k) (n + 1) 0 = some 0 := by
        rw [walk_add, hwalk', Option.bind_some, hwalk]
      rw [hsum] at hstop ⊢
      refine plain_of_block hhead hb hboth hstop ?_
      rw [ho]
      intro hsame
      cases hsame
      omega

/-! ## Outside of all blocks -/

/-- Line `n` stands inside of the block that a line further up opens, or closes that block. -/
def Enclosed (p : Program) (n : Int) : Prop :=
  ∃ h kind b, p.head? h = some kind ∧ kind.opensBlock = true ∧ p.block h = .ok b ∧ h < n ∧
    n ≤ b.close

/-- All blocks that are opened before line `n` end before it. -/
def Outer (p : Program) (n : Int) : Prop :=
  ∀ h kind b, p.head? h = some kind → kind.opensBlock = true → p.block h = .ok b → h < n →
    b.close < n

theorem Outer.not_enclosed (h : p.Outer n) : ¬ p.Enclosed n := by
  rintro ⟨m, kind, b, hhead, hopens, hb, hlt, hle⟩
  have hclose := h m kind b hhead hopens hb hlt
  omega

theorem outer_first (p : Program) : p.Outer 1 := by
  intro h kind b hhead _ _ hlt
  obtain ⟨head, args, hts, -⟩ := exists_of_head? hhead
  have hlow := (bounds_of_tokens hts).1
  omega

theorem Outer.next (h : p.Outer n) (hturn : p.turn n 0 = some 0) : p.Outer (n + 1) := by
  intro m kind b hhead hopens hb hlt
  have hne : m ≠ n := by
    rintro rfl
    cases hturn.symm.trans (turn_of_opensBlock hhead hopens 0)
  have hclose := h m kind b hhead hopens hb (by omega)
  omega

/-- Behind a block that is opened outside of all blocks it goes on outside of them. -/
theorem Outer.behind (h : p.Outer n) (hb : p.block n = .ok b) : p.Outer (b.close + 1) := by
  intro m kind' b' hhead' hopens' hb' hlt
  have hend := (block_order hb).2.1
  rcases Int.lt_trichotomy m n with hmn | rfl | hnm
  · have hclose := h m kind' b' hhead' hopens' hb' hmn
    omega
  · cases hb.symm.trans hb'
    omega
  · -- the line that closes the block does not open one
    have hne : m ≠ b.close := by
      rintro rfl
      obtain ⟨-, k, -, hfound, -⟩ := block_eq_ok hb
      rw [hfound.head] at hhead'
      cases hhead'
      cases hopens'
    have hclose := (close_lt_close hb hnm (by omega) hhead' hopens' hb').1
    omega

end Program

end RobotMaze

import RobotMaze.Proofs.Program.Nesting
import RobotMaze.Proofs.Program.Rows
import RobotMaze.Proofs.Run.Memo

/-!
# The matching `END`

Which line closes a block is told by counting alone: the depth of a line is the number of openers
minus the number of `END`s since the line that opens the block, and the block ends where the depth
first falls below zero.  On the way down, the lines at depth zero that start with `OTHERWISE` divide
the block, and only an `IF` may have one of them.

* `Program.depth` — the depth of a line in a block;
* `Program.Closes` and `Program.Divides` — the line that closes a block, and its `OTHERWISE` lines;
* `Program.Breaks` — an `OTHERWISE` line that may not stand where it does;
* `Program.Midway.settles` — the search, from any line it comes to, gives the right answer;
* `Program.Legible.block_finds_close` — so a block is found exactly if it is closed and properly
  divided, and otherwise the first line that breaks the rules is reported, or the opening line.
-/

namespace RobotMaze.Program

variable {p : Program} {h last n : Int}

/-! ## Depth -/

/-- The number of lines behind `a`, up to `b`, whose first word is of one of the given kinds. -/
def headsIn (p : Program) (kinds : Kind → Bool) (a b : Int) : Nat :=
  (List.range (b - a).toNat).countP fun i : Nat => (p.head? (a + 1 + i)).any kinds

/-- The number of blocks opened behind line `h`, up to line `n`, minus the number of those closed.
-/
def depth (p : Program) (h n : Int) : Int :=
  p.headsIn Kind.opensBlock h n - p.headsIn (· == .close) h n

theorem headsIn_self (kinds : Kind → Bool) : p.headsIn kinds h h = 0 := by
  simp [headsIn]

theorem headsIn_step (kinds : Kind → Bool) (hn : h < n) :
    p.headsIn kinds h n
      = p.headsIn kinds h (n - 1) + if (p.head? n).any kinds = true then 1 else 0 := by
  have hcount : (n - h).toNat = (n - 1 - h).toNat + 1 := by omega
  have hline : h + 1 + ((n - 1 - h).toNat : Int) = n := by omega
  unfold headsIn
  rw [hcount, List.range_succ, List.countP_append, List.countP_singleton, hline]

/-- Nothing is open right behind the line that opens the block. -/
theorem depth_self : p.depth h h = 0 := by
  rw [depth, headsIn_self, headsIn_self]
  rfl

/-- What a line adds to the depth. -/
def lift (p : Program) (n : Int) : Int :=
  match p.head? n with
  | some .branch => 1
  | some .loop => 1
  | some .close => -1
  | _ => 0

theorem depth_step (hn : h < n) : p.depth h n = p.depth h (n - 1) + p.lift n := by
  unfold depth lift
  rw [headsIn_step _ hn, headsIn_step _ hn]
  cases p.head? n with
  | none => simp
  | some k =>
    cases k with
    | branch | loop | close =>
      simp [Kind.opensBlock]
      omega
    | _ => simp [Kind.opensBlock]

/-- The search counts as many open blocks as the depth says. -/
theorem lift_of_turn {d d' : Nat} (h : p.turn n d = some d') : (d' : Int) = d + p.lift n := by
  unfold turn at h
  unfold lift
  cases hhead : p.head? n with
  | none =>
    rw [hhead] at h
    cases h
    simp
  | some k =>
    rw [hhead] at h
    cases k with
    | close =>
      cases d with
      | zero => cases h
      | succ d =>
        obtain rfl : d = d' := Option.some.inj h
        show (d : Int) = (d + 1 : Nat) + -1
        omega
    | _ =>
      cases h
      simp

theorem depth_of_turn {d d' : Nat} (hn : h < n) (hd : p.depth h (n - 1) = d)
    (hturn : p.turn n d = some d') : p.depth h n = d' := by
  rw [depth_step hn, hd, lift_of_turn hturn]

/-! ## The lines of a block -/

/-- An `END` before the last line that leads below the block opened on line `h`. -/
structure Unmatched (p : Program) (h last n : Int) : Prop where
  after : h < n
  before : n < last
  head : p.head? n = some .close
  depth : p.depth h n = -1

/-- The line that closes the block opened on line `h`. -/
structure Closes (p : Program) (h last e : Int) : Prop where
  unmatched : p.Unmatched h last e
  least : ∀ n, p.Unmatched h last n → e ≤ n

/-- An `OTHERWISE` line at the level of the block opened on line `h`. -/
structure Level (p : Program) (h n : Int) : Prop where
  after : h < n
  head : p.head? n = some .otherwise
  depth : p.depth h n = 0

/-- An `OTHERWISE` line of the block opened on line `h`; if nothing closes the block, it goes on to
the last line. -/
structure Divides (p : Program) (h last n : Int) : Prop extends p.Level h n where
  before : n < last
  inside : ∀ e, p.Closes h last e → n < e

/-- A line with `OTHERWISE` and nothing else. -/
def Bare (p : Program) (n : Int) : Prop := ∃ t, p.tokens n = .ok [t] ∧ t.kind = .otherwise

/-- An `OTHERWISE` line of a block that has arguments, belongs to a loop, or is not the first. -/
def Breaks (p : Program) (h last n : Int) : Prop :=
  p.Divides h last n ∧
    (¬ p.Bare n ∨ p.head? h = some .loop ∨ ∃ o < n, p.Divides h last o)

/-- The first line that breaks the rules. -/
structure BreaksFirst (p : Program) (h last n : Int) : Prop where
  breaks : p.Breaks h last n
  least : ∀ m, p.Breaks h last m → n ≤ m

/-- A block that is closed and properly divided. -/
structure Proper (p : Program) (h last : Int) : Prop where
  closed : ∃ e, p.Closes h last e
  once : ∀ n m, p.Divides h last n → p.Divides h last m → n = m
  bare : ∀ n, p.Divides h last n → p.Bare n
  branch : p.head? h = some .loop → ∀ n, ¬ p.Divides h last n

/-- A block is proper if it is closed and no line breaks the rules. -/
theorem proper_iff :
    p.Proper h last ↔ (∃ e, p.Closes h last e) ∧ ∀ n, ¬ p.Breaks h last n := by
  constructor
  · intro hproper
    refine ⟨hproper.closed, ?_⟩
    rintro n ⟨hn, hbare | hloop | ⟨o, ho, hdivides⟩⟩
    · exact hbare (hproper.bare n hn)
    · exact hproper.branch hloop n hn
    · exact absurd (hproper.once o n hdivides hn) (by omega)
  · rintro ⟨hclosed, hrules⟩
    refine ⟨hclosed, ?_, ?_, ?_⟩
    · intro n m hn hm
      by_contra hne
      rcases Int.lt_or_gt_of_ne hne with hlt | hlt
      · exact hrules m ⟨hm, .inr (.inr ⟨n, hlt, hn⟩)⟩
      · exact hrules n ⟨hn, .inr (.inr ⟨m, hlt, hm⟩)⟩
    · intro n hn
      by_contra hbare
      exact hrules n ⟨hn, .inl hbare⟩
    · intro hloop n hn
      exact hrules n ⟨hn, .inr (.inl hloop)⟩

/-! ## What the search knows -/

/-- What the search knows when it comes to line `n` with `d` open blocks inside of the one opened on
line `h`. -/
structure Midway (p : Program) (h n : Int) (d : Nat) (seen : Option Int) : Prop where
  after : h < n
  depth : p.depth h (n - 1) = d
  /-- The block was not closed on the way. -/
  unclosed : ∀ m, h < m → m < n → 0 ≤ p.depth h m
  /-- The search has seen the `OTHERWISE` line, if there was one. -/
  seen_iff : ∀ o, seen = some o ↔ p.Level h o ∧ o < n
  lawful : ∀ o, seen = some o → p.Bare o ∧ p.head? h ≠ some .loop

theorem midway_start (p : Program) (h : Int) : p.Midway h (h + 1) 0 none where
  after := by omega
  depth := by
    rw [show h + 1 - 1 = h from by omega]
    exact depth_self
  unclosed m hm hmn := by omega
  seen_iff o := by
    constructor
    · intro ho
      cases ho
    · rintro ⟨hlevel, ho⟩
      have := hlevel.after
      omega
  lawful o ho := by cases ho

namespace Midway

variable {d : Nat} {seen : Option Int}

/-- Lines that lead below the block stand further down. -/
theorem le_of_unmatched (hm : p.Midway h n d seen) {e : Int} (he : p.Unmatched h last e) :
    n ≤ e := by
  by_contra hlt
  have hdepth := hm.unclosed e he.after (by omega)
  rw [he.depth] at hdepth
  omega

/-- An `OTHERWISE` line of the block that stands further up is the one that was seen. -/
theorem seen_of_divides (hm : p.Midway h n d seen) {o : Int} (ho : p.Divides h last o)
    (hlt : o < n) : seen = some o :=
  (hm.seen_iff o).2 ⟨ho.toLevel, hlt⟩

/-- No line further up breaks the rules. -/
theorem not_breaks (hm : p.Midway h n d seen) {m : Int} (hlt : m < n) : ¬ p.Breaks h last m := by
  rintro ⟨hdivides, hbreaks⟩
  have hseen := hm.seen_of_divides hdivides hlt
  obtain ⟨hbare, hbranch⟩ := hm.lawful m hseen
  rcases hbreaks with hargs | hloop | ⟨o, ho, hdivides'⟩
  · exact hargs hbare
  · exact hbranch hloop
  · have hsame : some o = some m :=
      (hm.seen_of_divides hdivides' (by omega)).symm.trans hseen
    cases hsame
    omega

/-- Behind a line that does not close the block, the count is right and the block is still open. -/
theorem unclosed_next (hm : p.Midway h n d seen) {d' : Nat} (hturn : p.turn n d = some d') :
    p.depth h (n + 1 - 1) = d' ∧ ∀ m, h < m → m < n + 1 → 0 ≤ p.depth h m := by
  have hdepth := depth_of_turn hm.after hm.depth hturn
  constructor
  · rw [show n + 1 - 1 = n from by omega]
    exact hdepth
  · intro m hmh hmn
    by_cases hsame : m = n
    · rw [hsame, hdepth]
      exact Int.natCast_nonneg d'
    · exact hm.unclosed m hmh (by omega)

/-- The search goes on behind a line that is no `OTHERWISE` of the block. -/
theorem next (hm : p.Midway h n d seen) {d' : Nat} (hturn : p.turn n d = some d')
    (hother : ¬ (p.head? n = some .otherwise ∧ d = 0)) : p.Midway h (n + 1) d' seen := by
  obtain ⟨hdepth, hunclosed⟩ := hm.unclosed_next hturn
  have hlevel : ¬ p.Level h n := by
    intro hlevel
    have hlift : p.lift n = 0 := by rw [lift, hlevel.head]
    have hcount := lift_of_turn hturn
    have hzero := hlevel.depth
    rw [depth_of_turn hm.after hm.depth hturn] at hzero
    exact hother ⟨hlevel.head, by omega⟩
  refine ⟨Int.lt_trans hm.after (Int.lt_succ n), hdepth, hunclosed, ?_, hm.lawful⟩
  intro o
  rw [hm.seen_iff]
  constructor
  · rintro ⟨ho, hlt⟩
    exact ⟨ho, by omega⟩
  · rintro ⟨ho, hlt⟩
    have hne : o ≠ n := by
      rintro rfl
      exact hlevel ho
    exact ⟨ho, by omega⟩

/-- A first bare `OTHERWISE` of a branch is seen. -/
theorem divide (hm : p.Midway h n 0 none) (hhead : p.head? n = some .otherwise)
    (hturn : p.turn n 0 = some 0) (hbare : p.Bare n) (hbranch : p.head? h ≠ some .loop) :
    p.Midway h (n + 1) 0 (some n) := by
  obtain ⟨hdepth, hunclosed⟩ := hm.unclosed_next hturn
  refine ⟨Int.lt_trans hm.after (Int.lt_succ n), hdepth, hunclosed, ?_, ?_⟩
  · intro o
    constructor
    · intro ho
      cases ho
      exact ⟨⟨hm.after, hhead, depth_of_turn hm.after hm.depth hturn⟩, Int.lt_succ n⟩
    · rintro ⟨ho, hlt⟩
      by_contra hne
      have hon : o ≠ n := fun hon => hne (congrArg some hon.symm)
      have hseen := (hm.seen_iff o).2 ⟨ho, by omega⟩
      cases hseen
  · intro o ho
    cases ho
    exact ⟨hbare, hbranch⟩

end Midway

/-! ## What the search answers -/

/-- The answer to the search for the end of a block is right. -/
def Settles (p : Program) (h last : Int) : Except Stop Block → Prop
  | .ok b => b.header = h ∧ p.Closes h last b.close ∧
      (∀ n, b.otherwise = some n ↔ p.Divides h last n) ∧ ∀ n, ¬ p.Breaks h last n
  | .error e => ∃ fault line, e = .failed ⟨fault, line, 0⟩ ∧ fault.origin = .source ∧
      (p.BreaksFirst h last line ∨
        line = h ∧ (∀ n, ¬ p.Breaks h last n) ∧ ∀ e, ¬ p.Closes h last e)

namespace Midway

variable {d : Nat} {seen : Option Int}

/-- An `END` that nothing waits for closes the block. -/
theorem settles_close (hm : p.Midway h n 0 seen) (hlast : n < last)
    (hhead : p.head? n = some .close) : p.Settles h last (.ok ⟨h, seen, n⟩) := by
  have hdepth : p.depth h n = -1 := by
    rw [depth_step hm.after, hm.depth, lift, hhead]
    rfl
  have hcloses : p.Closes h last n :=
    ⟨⟨hm.after, hlast, hhead, hdepth⟩, fun e he => hm.le_of_unmatched he⟩
  refine ⟨rfl, hcloses, ?_, ?_⟩
  · intro o
    rw [hm.seen_iff]
    constructor
    · rintro ⟨ho, hlt⟩
      refine ⟨ho, by omega, fun e he => ?_⟩
      have := he.least n hcloses.unmatched
      have := hcloses.least e he.unmatched
      omega
    · intro ho
      exact ⟨ho.toLevel, ho.inside n hcloses⟩
  · intro m hbreaks
    exact hm.not_breaks (hbreaks.1.inside n hcloses) hbreaks

/-- An `OTHERWISE` of the block that breaks a rule is the first line that does. -/
theorem settles_breaks (hm : p.Midway h n 0 seen) (hlast : n < last)
    (hhead : p.head? n = some .otherwise) (hturn : p.turn n 0 = some 0)
    (hrule : ¬ p.Bare n ∨ p.head? h = some .loop ∨ seen.isSome = true) {fault : Fault}
    (hfault : fault.origin = .source) :
    p.Settles h last (.error (.failed ⟨fault, n, 0⟩)) := by
  -- a line that closes the block stands further down, and it is another one
  have hinside : ∀ {o : Int}, o ≤ n → ∀ e, p.Closes h last e → o < e := by
    intro o ho e he
    have hle := hm.le_of_unmatched he.unmatched
    have hne : e ≠ n := by
      rintro rfl
      cases hhead.symm.trans he.unmatched.head
    omega
  have hdivides : p.Divides h last n :=
    ⟨⟨hm.after, hhead, depth_of_turn hm.after hm.depth hturn⟩, hlast, hinside (Int.le_refl n)⟩
  refine ⟨fault, n, rfl, hfault, .inl ⟨⟨hdivides, ?_⟩, ?_⟩⟩
  · rcases hrule with hbare | hloop | hseen
    · exact .inl hbare
    · exact .inr (.inl hloop)
    · obtain ⟨o, ho⟩ := Option.isSome_iff_exists.1 hseen
      obtain ⟨hlevel, hlt⟩ := (hm.seen_iff o).1 ho
      exact .inr (.inr ⟨o, hlt, hlevel, by omega, hinside (by omega)⟩)
  · intro m hbreaks
    by_contra hlt
    exact hm.not_breaks (by omega) hbreaks

/-- At the last line the block is not closed. -/
theorem settles_last (hm : p.Midway h last d seen) (k : Kind) :
    p.Settles h last (.error (.failed ⟨.missingEnd k, h, 0⟩)) := by
  refine ⟨_, h, rfl, rfl, .inr ⟨rfl, ?_, ?_⟩⟩
  · intro m hbreaks
    exact hm.not_breaks hbreaks.1.before hbreaks
  · intro e he
    have hle := hm.le_of_unmatched he.unmatched
    have hlt := he.unmatched.before
    omega

end Midway

/-- What is wrong with an `OTHERWISE` line of a block, if it is at the level of the block. -/
theorem otherwiseFault_cases {head t : Token} {args ts : List Token}
    (hhead : p.tokens h = .ok (head :: args)) (hopens : head.kind.opensBlock = true)
    (hts : p.tokens n = .ok (t :: ts)) (ht : t.kind = .otherwise) (seen : Option Int) :
    (otherwiseFault (head :: args) h seen (t :: ts) = .ok none ∧ p.Bare n ∧
        p.head? h ≠ some .loop ∧ seen = none) ∨
      ∃ fault, otherwiseFault (head :: args) h seen (t :: ts) = .ok (some fault) ∧
        fault.origin = .source ∧
          (¬ p.Bare n ∨ p.head? h = some .loop ∨ seen.isSome = true) := by
  have hopener := head?_of_tokens hhead
  have hlength : (t :: ts).length ≠ 1 ↔ ¬ p.Bare n := by
    rw [not_iff_not]
    constructor
    · intro hone
      have hnil : ts = [] := by simpa using hone
      subst hnil
      exact ⟨t, hts, ht⟩
    · rintro ⟨u, hu, -⟩
      rw [hts] at hu
      cases hu
      rfl
  unfold otherwiseFault
  by_cases hbare : (t :: ts).length ≠ 1
  · rw [if_pos hbare]
    exact .inr ⟨_, rfl, rfl, .inl (hlength.1 hbare)⟩
  rw [if_neg hbare]
  by_cases hbranch : head.kind = .branch
  · simp only [hbranch, ne_eq, not_true_eq_false, if_false]
    cases seen with
    | some o => exact .inr ⟨_, rfl, rfl, .inr (.inr rfl)⟩
    | none =>
      refine .inl ⟨rfl, not_not.1 (mt hlength.2 hbare), ?_, rfl⟩
      rw [hopener, hbranch]
      decide
  · simp only [ne_eq, hbranch, not_false_eq_true, if_true]
    refine .inr ⟨_, rfl, rfl, .inr (.inl ?_)⟩
    rw [hopener]
    cases hkind : head.kind with
    | loop => rfl
    | branch => exact absurd hkind hbranch
    | _ =>
      rw [hkind] at hopens
      cases hopens

/-- All that the search can do on a line that can be read: it closes the block, goes on behind the
line, or looks at an `OTHERWISE` of the block. -/
theorem closeFrom_cases {ts : List Token} (hts : p.tokens n = .ok ts) (opener : List Token)
    (h : Int) (count d : Nat) (seen : Option Int) :
    (p.head? n = some .close ∧ d = 0 ∧
        p.closeFrom opener h (count + 1) n d seen = .ok ⟨h, seen, n⟩) ∨
      (∃ d', p.turn n d = some d' ∧ ¬ (p.head? n = some .otherwise ∧ d = 0) ∧
        p.closeFrom opener h (count + 1) n d seen
          = p.closeFrom opener h count (n + 1) d' seen) ∨
      ∃ t rest, ts = t :: rest ∧ t.kind = .otherwise ∧ d = 0 ∧
        p.closeFrom opener h (count + 1) n d seen = (do
          match ← otherwiseFault opener h seen (t :: rest) with
          | some fault => throw (.failed { fault := fault, line := n })
          | none => p.closeFrom opener h count (n + 1) 0 (some n)) := by
  rw [closeFrom_succ, hts]
  unfold turn
  cases ts with
  | nil =>
    have hhead : p.head? n = none := by rw [head?, hts]
    simp only [hhead]
    exact .inr (.inl ⟨d, rfl, by simp, rfl⟩)
  | cons t rest =>
    simp only [bind, Except.bind, head?_of_tokens hts]
    cases hkind : t.kind with
    | branch => exact .inr (.inl ⟨d + 1, rfl, by simp, rfl⟩)
    | loop => exact .inr (.inl ⟨d + 1, rfl, by simp, rfl⟩)
    | close =>
      cases d with
      | zero => exact .inl ⟨rfl, rfl, rfl⟩
      | succ d => exact .inr (.inl ⟨d, rfl, by simp, rfl⟩)
    | otherwise =>
      cases d with
      | zero => exact .inr (.inr ⟨t, rest, rfl, hkind, rfl, rfl⟩)
      | succ d => exact .inr (.inl ⟨d + 1, rfl, by simp, rfl⟩)
    | _ => exact .inr (.inl ⟨d, rfl, by simp, rfl⟩)

/-- **The search is right** from every line that it comes to. -/
theorem Midway.settles {head : Token} {args : List Token} {count d : Nat} {seen : Option Int}
    (hm : p.Midway h n d seen) (hhead : p.tokens h = .ok (head :: args))
    (hopens : head.kind.opensBlock = true) (hcount : n + count = last)
    (hlegible : ∀ m, h < m → m < last → ∃ ts, p.tokens m = .ok ts) :
    p.Settles h last (p.closeFrom (head :: args) h count n d seen) := by
  induction count generalizing n d seen with
  | zero =>
    rw [closeFrom_zero]
    obtain rfl : n = last := by omega
    exact hm.settles_last head.kind
  | succ count ih =>
    have hlt : n < last := by omega
    obtain ⟨ts, hts⟩ := hlegible n hm.after hlt
    rcases closeFrom_cases hts (head :: args) h count d seen with ⟨hclose, rfl, heq⟩ |
      ⟨d', hturn, hother, heq⟩ | ⟨t, rest, rfl, hkind, rfl, heq⟩
    · rw [heq]
      exact hm.settles_close hlt hclose
    · rw [heq]
      exact ih (hm.next hturn hother) (by omega)
    · have hotherwise : p.head? n = some .otherwise := by rw [head?_of_tokens hts, hkind]
      have hturn : p.turn n 0 = some 0 := by
        unfold turn
        rw [hotherwise]
      rw [heq]
      rcases otherwiseFault_cases hhead hopens hts hkind seen with
        ⟨hnone, hbare, hbranch, rfl⟩ | ⟨fault, hfault, horigin, hrule⟩
      · rw [hnone]
        exact ih (hm.divide hotherwise hturn hbare hbranch) (by omega)
      · rw [hfault]
        exact hm.settles_breaks hlt hotherwise hturn hrule horigin

/-! ## The block -/

namespace Settles

variable {r : Except Stop Block}

/-- A block is found exactly if it is proper. -/
theorem ok_iff_proper (hr : p.Settles h last r) : (∃ b, r = .ok b) ↔ p.Proper h last := by
  rw [proper_iff]
  constructor
  · rintro ⟨b, rfl⟩
    obtain ⟨-, hcloses, -, hrules⟩ := hr
    exact ⟨⟨b.close, hcloses⟩, hrules⟩
  · rintro ⟨⟨e, hcloses⟩, hrules⟩
    cases r with
    | ok b => exact ⟨b, rfl⟩
    | error stop =>
      obtain ⟨fault, line, -, -, hfirst | ⟨-, -, hopen⟩⟩ := hr
      · exact absurd hfirst.breaks (hrules line)
      · exact absurd hcloses (hopen e)

/-- If lines break the rules, the first of them is reported. -/
theorem of_breaks (hr : p.Settles h last r) (hbreaks : ∃ n, p.Breaks h last n) :
    ∃ n fault, p.BreaksFirst h last n ∧ fault.origin = .source ∧
      r = .error (.failed ⟨fault, n, 0⟩) := by
  obtain ⟨n, hn⟩ := hbreaks
  cases r with
  | ok b =>
    obtain ⟨-, -, -, hrules⟩ := hr
    exact absurd hn (hrules n)
  | error stop =>
    obtain ⟨fault, line, rfl, horigin, hfirst | ⟨-, hrules, -⟩⟩ := hr
    · exact ⟨line, fault, hfirst, horigin, rfl⟩
    · exact absurd hn (hrules n)

/-- If no line breaks the rules and none closes the block, the line that opens it is reported. -/
theorem of_unclosed (hr : p.Settles h last r) (hrules : ∀ n, ¬ p.Breaks h last n)
    (hopen : ∀ e, ¬ p.Closes h last e) :
    ∃ fault, fault.origin = .source ∧ r = .error (.failed ⟨fault, h, 0⟩) := by
  cases r with
  | ok b =>
    obtain ⟨-, hcloses, -⟩ := hr
    exact absurd hcloses (hopen b.close)
  | error stop =>
    obtain ⟨fault, line, rfl, horigin, hfirst | ⟨rfl, -, -⟩⟩ := hr
    · exact absurd hfirst.breaks (hrules line)
    · exact ⟨fault, horigin, rfl⟩

end Settles

/-- The last line of a program that can be read is found. -/
theorem Legible.last_eq (hp : p.Legible) (hlast : p.IsLast p.size last) : p.last = .ok last := by
  obtain ⟨l, hl⟩ := hp.last
  have hl' := last_eq_ok hl
  -- neither of the two can stand before the other
  have hle : ∀ {a b : Int}, p.IsLast p.size a → p.IsLast p.size b → a ≤ b := by
    intro a b ha hb
    by_cases hzero : a = 0
    · have := hb.nonneg
      omega
    · obtain ⟨head, args, hts⟩ := ha.words hzero
      exact hb.le_of_tokens hts
  rw [hl, Int.le_antisymm (hle hl' hlast) (hle hlast hl')]

theorem Legible.settles_block (hp : p.Legible) (hlast : p.IsLast p.size last) (hlt : h < last)
    {k : Kind} (hhead : p.head? h = some k) (hk : k.opensBlock = true) :
    p.Settles h last (p.block h) := by
  obtain ⟨head, args, hts, rfl⟩ := exists_of_head? hhead
  have hbounds := bounds_of_tokens hts
  rw [block_eq, hp.last_eq hlast, hts]
  refine (midway_start p h).settles hts hk (by omega) ?_
  intro m hm hmlast
  have hle := hlast.le
  exact hp m (by omega) (by omega)

/-- **The matching `END` is found.**  In a program that can be read, a block opened before the last
line is found exactly if it is closed and properly divided, with the line that closes it and its
`OTHERWISE` line, if there is one.  If lines break the rules for `OTHERWISE`, the first of them is
reported; if none does and the block is not closed, the line that opens it is.  What was looked up
before makes no difference. -/
theorem Legible.block_finds_close (hp : p.Legible) (hlast : p.IsLast p.size last) (hlt : h < last)
    {k : Kind} (hhead : p.head? h = some k) (hk : k.opensBlock = true) :
    ((∃ b, p.block h = .ok b) ↔ p.Proper h last) ∧
      (∀ b, p.block h = .ok b → b.header = h ∧ p.Closes h last b.close ∧
        ∀ n, b.otherwise = some n ↔ p.Divides h last n) ∧
      ((∃ n, p.Breaks h last n) → ∃ n fault, p.BreaksFirst h last n ∧ fault.origin = .source ∧
        p.block h = .error (.failed ⟨fault, n, 0⟩)) ∧
      ((∀ n, ¬ p.Breaks h last n) → (∀ e, ¬ p.Closes h last e) →
        ∃ fault, fault.origin = .source ∧ p.block h = .error (.failed ⟨fault, h, 0⟩)) ∧
      ∀ s : Session, s.memo.Coherent p → ∃ t : Session, t.bare = s.bare ∧
        (Reader.kept p).block h s = Step.ofExcept (p.block h) t := by
  have hsettles := hp.settles_block hlast hlt hhead hk
  refine ⟨hsettles.ok_iff_proper, ?_, hsettles.of_breaks, hsettles.of_unclosed, ?_⟩
  · intro b hb
    rw [hb] at hsettles
    exact ⟨hsettles.1, hsettles.2.1, hsettles.2.2.1⟩
  · intro s hs
    obtain ⟨t, hbare, -, ht⟩ := Reader.recalls_block h s hs
    exact ⟨t, hbare, ht⟩

/-- A branch with blocks on both sides of its `OTHERWISE`. -/
def forked : Program :=
  ⟨["LOAD 1", "IF TRUE", "IF FALSE", "OTHERWISE", "END", "", "OTHERWISE @ of line 2", "WHILE FALSE",
    "END", "END", "END"]⟩

/-- The branch on line 2 of `forked` is divided on line 7 and nowhere else, and line 10 closes it.
-/
theorem forked_block_finds_close :
    forked.Legible ∧ forked.IsLast forked.size 11 ∧ forked.head? 2 = some .branch ∧
      forked.Closes 2 11 10 ∧ ∀ n, forked.Divides 2 11 n ↔ n = 7 := by
  have hlegible : forked.Legible := by decide +kernel
  have hlast : forked.IsLast forked.size 11 := last_eq_ok (by decide +kernel)
  have hhead : forked.head? 2 = some .branch := by decide +kernel
  have hblock : forked.block 2 = .ok ⟨2, some 7, 10⟩ := by decide +kernel
  obtain ⟨-, hcloses, hdivides⟩ :=
    (hlegible.block_finds_close hlast (by decide) hhead rfl).2.1 _ hblock
  refine ⟨hlegible, hlast, hhead, hcloses, fun n => ?_⟩
  rw [← hdivides, Option.some.injEq, eq_comm]

end RobotMaze.Program

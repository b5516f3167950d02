import RobotMaze.Program.Block
import Mathlib.Tactic.Common

/-!
# Blocks nest

The search for the end of a block walks down the lines and keeps count of the blocks that are open.
It ends at the first `END` that closes nothing opened on the way, so a block that is opened inside
of another one also ends inside of it.

* `Program.walk` — the number of open blocks after some lines;
* `Program.block_eq_ok` — where a block ends and where its `OTHERWISE` is;
* `Program.close_lt_close` — a block inside of a block ends before it;
* `Program.Closed` — all blocks that some lines open end among them.
-/

namespace RobotMaze.Program

variable {p : Program}

/-! ## Walking down the lines -/

/-- The kind of the first word of a line, if the line can be read and has one. -/
def head? (p : Program) (n : Int) : Option Kind :=
  match p.tokens n with
  | .ok (head :: _) => some head.kind
  | _ => none

/-- How many blocks are open after a line that is met with `d` open blocks.  There is no answer at
an `END` that none of them waits for. -/
def turn (p : Program) (n : Int) (d : Nat) : Option Nat :=
  match p.head? n, d with
  | some .branch, d => some (d + 1)
  | some .loop, d => some (d + 1)
  | some .close, 0 => none
  | some .close, d + 1 => some d
  | _, d => some d

/-- How many blocks are open after the `k` lines from `n` on. -/
def walk (p : Program) : (k : Nat) → (n : Int) → (d : Nat) → Option Nat
  | 0, _, d => some d
  | k + 1, n, d => (p.turn n d).bind (p.walk k (n + 1))

theorem head?_of_tokens {n : Int} {head : Token} {args : List Token}
    (h : p.tokens n = .ok (head :: args)) : p.head? n = some head.kind := by
  rw [head?, h]

theorem exists_of_head? {n : Int} {kind : Kind} (h : p.head? n = some kind) :
    ∃ head args, p.tokens n = .ok (head :: args) ∧ head.kind = kind := by
  unfold head? at h
  split at h
  · next head args hts =>
    cases h
    exact ⟨head, args, hts, rfl⟩
  · cases h

theorem turn_of_opensBlock {n : Int} {k : Kind} (h : p.head? n = some k) (hk : k.opensBlock = true)
    (d : Nat) : p.turn n d = some (d + 1) := by
  unfold turn
  rw [h]
  cases k with
  | branch => rfl
  | loop => rfl
  | _ => cases hk

theorem turn_eq_none_iff {n : Int} {d : Nat} :
    p.turn n d = none ↔ p.head? n = some .close ∧ d = 0 := by
  unfold turn
  split <;> simp_all

/-- Blocks that are open from the start make no difference to the others. -/
theorem turn_add {n : Int} {i i' : Nat} (h : p.turn n i = some i') (d : Nat) :
    p.turn n (i + d) = some (i' + d) := by
  unfold turn at h ⊢
  cases hk : p.head? n with
  | none =>
    rw [hk] at h
    cases h
    rfl
  | some k =>
    rw [hk] at h
    cases k with
    | branch =>
      cases h
      exact congrArg some (by omega)
    | loop =>
      cases h
      exact congrArg some (by omega)
    | close =>
      cases i with
      | zero => cases h
      | succ i =>
        cases h
        rw [Nat.succ_add]
    | _ =>
      cases h
      rfl

theorem walk_add (j k : Nat) (n : Int) (d : Nat) :
    p.walk (j + k) n d = (p.walk j n d).bind (p.walk k (n + j)) := by
  induction j generalizing n d with
  | zero => simp [walk]
  | succ j ih =>
    rw [Nat.succ_add, walk, walk, Option.bind_assoc]
    congr 1
    funext d'
    rw [ih, show n + 1 + (j : Int) = n + ((j + 1 : Nat) : Int) from by omega]

/-- A walk that comes out below the blocks that were open at its start passes the `END` that closes
the last of them. -/
theorem walk_crosses {k : Nat} {n : Int} {i d d' : Nat} (h : p.walk k n (i + d) = some d')
    (hd : d' < d) : ∃ j < k, p.walk j n i = some 0 ∧ p.head? (n + j) = some .close := by
  induction k generalizing n i with
  | zero =>
    rw [walk, Option.some.injEq] at h
    omega
  | succ k ih =>
    rw [walk] at h
    cases hturn : p.turn n i with
    | none =>
      obtain ⟨hclose, rfl⟩ := turn_eq_none_iff.1 hturn
      exact ⟨0, by omega, rfl, by simpa using hclose⟩
    | some i' =>
      rw [turn_add hturn] at h
      obtain ⟨j, hj, hwalk, hclose⟩ := ih h
      refine ⟨j + 1, by omega, ?_, ?_⟩
      · rw [walk, hturn]
        exact hwalk
      · rw [← hclose]
        congr 1
        omega

/-- The first `END` that closes nothing on the way is the only one that a walk can end at. -/
theorem close_unique {j k : Nat} {n : Int} {d : Nat} (hj : p.walk j n d = some 0)
    (hjclose : p.head? (n + j) = some .close) (hk : p.walk k n d = some 0)
    (hkclose : p.head? (n + k) = some .close) : j = k := by
  -- a walk goes no further than such an `END`
  have hle : ∀ {j k : Nat}, p.walk j n d = some 0 → p.head? (n + j) = some .close →
      p.walk k n d = some 0 → k ≤ j := by
    intro j k hj hclose hk
    by_contra hlt
    obtain ⟨i, rfl⟩ : ∃ i, k = j + (i + 1) := ⟨k - j - 1, by omega⟩
    rw [walk_add, hj, Option.bind_some, walk, turn_eq_none_iff.2 ⟨hclose, rfl⟩] at hk
    cases hk
  exact Nat.le_antisymm (hle hk hkclose hj) (hle hj hjclose hk)

/-! ## The search -/

/-- A block that the search finds. -/
structure Found (p : Program) (header n : Int) (d : Nat) (seen : Option Int) (b : Block) (k : Nat) :
    Prop where
  header : b.header = header
  close : b.close = n + k
  head : p.head? b.close = some .close
  walk : p.walk k n d = some 0
  otherwise : ∀ o, b.otherwise = some o → seen = some o ∨ ∃ j < k, o = n + j ∧ p.walk j n d = some 0

/-- What is found from the next line on is found from here. -/
theorem Found.step {header n : Int} {d d' k : Nat} {seen seen' : Option Int} {b : Block}
    (h : p.Found header (n + 1) d' seen' b k) (hturn : p.turn n d = some d')
    (hseen : ∀ o, seen' = some o → seen = some o ∨ o = n ∧ d = 0) :
    p.Found header n d seen b (k + 1) := by
  have hwalk : ∀ j, p.walk (j + 1) n d = p.walk j (n + 1) d' := by
    intro j
    rw [Program.walk, hturn, Option.bind_some]
  refine ⟨h.header, ?_, h.head, ?_, ?_⟩
  · rw [h.close]
    omega
  · rw [hwalk]
    exact h.walk
  · intro o ho
    rcases h.otherwise o ho with hs | ⟨j, hj, rfl, hw⟩
    · rcases hseen o hs with hs | ⟨rfl, rfl⟩
      · exact .inl hs
      · exact .inr ⟨0, by omega, by omega, rfl⟩
    · exact .inr ⟨j + 1, by omega, by omega, (hwalk j).trans hw⟩

theorem closeFrom_eq_ok {opener : List Token} {header n : Int} {count d : Nat} {seen : Option Int}
    {b : Block} (h : p.closeFrom opener header count n d seen = .ok b) :
    ∃ k < count, p.Found header n d seen b k := by
  induction count generalizing n d seen with
  | zero =>
    rw [closeFrom_zero] at h
    cases opener <;> cases h
  | succ count ih =>
    -- the search goes on behind the line, with `d'` open blocks
    have hstep : ∀ {d' seen'}, p.turn n d = some d' →
        (∀ o, seen' = some o → seen = some o ∨ o = n ∧ d = 0) →
        p.closeFrom opener header count (n + 1) d' seen' = .ok b →
        ∃ k < count + 1, p.Found header n d seen b k := by
      intro d' seen' hturn hseen hrest
      obtain ⟨k, hk, hfound⟩ := ih hrest
      exact ⟨k + 1, by omega, hfound.step hturn hseen⟩
    have hsame : ∀ o, seen = some o → seen = some o ∨ o = n ∧ d = 0 := fun o ho => .inl ho
    rw [closeFrom_succ] at h
    cases hts : p.tokens n with
    | error e =>
      rw [hts] at h
      cases h
    | ok ts =>
      rw [hts] at h
      cases ts with
      | nil =>
        have hhead : p.head? n = none := by rw [head?, hts]
        exact hstep (by unfold turn; rw [hhead]) hsame h
      | cons head args =>
        have hhead := head?_of_tokens hts
        simp only [bind, Except.bind] at h
        split at h
        · next hk => exact hstep (by unfold turn; rw [hhead, hk]) hsame h
        · next hk => exact hstep (by unfold turn; rw [hhead, hk]) hsame h
        · next hk =>
          cases h
          refine ⟨0, by omega, rfl, by simp, ?_, rfl, fun o ho => .inl ho⟩
          rw [hhead, hk]
        · next hk => exact hstep (by unfold turn; rw [hhead, hk]) hsame h
        · next hk =>
          split at h
          · cases h
          · split at h
            · cases h
            · refine hstep (by unfold turn; rw [hhead, hk]) ?_ h
              rintro o ⟨⟩
              exact .inr ⟨rfl, rfl⟩
        · refine hstep ?_ hsame h
          unfold turn
          rw [hhead]
          split <;> simp_all

/-- Where a block ends and where its `OTHERWISE` is. -/
theorem block_eq_ok {n : Int} {b : Block} (h : p.block n = .ok b) :
    ∃ last k, p.last = .ok last ∧ p.Found n (n + 1) 0 none b k ∧ b.close < last := by
  rw [block_eq] at h
  cases hlast : p.last with
  | error e =>
    rw [hlast] at h
    cases h
  | ok last =>
    rw [hlast] at h
    cases hts : p.tokens n with
    | error e =>
      rw [hts] at h
      cases h
    | ok opener =>
      rw [hts] at h
      obtain ⟨k, hk, hfound⟩ := closeFrom_eq_ok h
      refine ⟨last, k, rfl, hfound, ?_⟩
      rw [hfound.close]
      omega

/-- The lines of a block stand in order. -/
theorem block_order {n : Int} {b : Block} (h : p.block n = .ok b) :
    b.header = n ∧ n < b.close ∧ ∀ o, b.otherwise = some o → n < o ∧ o < b.close := by
  obtain ⟨last, k, -, hfound, -⟩ := block_eq_ok h
  have hclose := hfound.close
  refine ⟨hfound.header, by omega, fun o ho => ?_⟩
  rcases hfound.otherwise o ho with hs | ⟨j, hj, rfl, -⟩
  · cases hs
  · omega

/-! ## Blocks inside of blocks -/

/-- A walk which comes back to where it started passes the `END` of every block that is opened on
it. -/
theorem exists_close_of_walk {n m : Int} {k : Nat} (hwalk : p.walk k n 0 = some 0) (hn : n ≤ m)
    (hm : m < n + k) {kind : Kind} (hhead : p.head? m = some kind)
    (hopens : kind.opensBlock = true) :
    ∃ e : Nat, m + 1 + e < n + k ∧ p.walk e (m + 1) 0 = some 0 ∧
      p.head? (m + 1 + e) = some .close := by
  obtain ⟨i, rfl⟩ : ∃ i : Nat, m = n + i := ⟨(m - n).toNat, by omega⟩
  obtain ⟨j, rfl⟩ : ∃ j, k = i + (j + 1) := ⟨k - i - 1, by omega⟩
  rw [walk_add] at hwalk
  cases hi : p.walk i n 0 with
  | none =>
    rw [hi] at hwalk
    cases hwalk
  | some d =>
    -- behind the opening line there is one more open block, and at the end there is none
    rw [hi, Option.bind_some, walk, turn_of_opensBlock hhead hopens, Option.bind_some] at hwalk
    obtain ⟨e, he, hcross, hclose⟩ := walk_crosses (i := 0) (d := d + 1) (by simpa using hwalk)
      (by omega)
    exact ⟨e, by omega, hcross, hclose⟩

/-- A block that is opened on a walk which comes back to where it started ends on the walk. -/
theorem close_lt_of_walk {n m : Int} {k : Nat} {b : Block} (hwalk : p.walk k n 0 = some 0)
    (hn : n ≤ m) (hm : m < n + k) {kind : Kind} (hhead : p.head? m = some kind)
    (hopens : kind.opensBlock = true) (hb : p.block m = .ok b) : b.close < n + k := by
  obtain ⟨e, he, hcross, hclose⟩ := exists_close_of_walk hwalk hn hm hhead hopens
  obtain ⟨-, k', -, hfound, -⟩ := block_eq_ok hb
  have hend := hfound.close
  have hsame := close_unique hcross hclose hfound.walk (by rw [← hend]; exact hfound.head)
  omega

/-- **A block inside of another one ends before it**, and before its `OTHERWISE` if it is opened
before that. -/
theorem close_lt_close {n m : Int} {b b' : Block} (hb : p.block n = .ok b) (hn : n < m)
    (hm : m < b.close) {kind : Kind} (hhead : p.head? m = some kind)
    (hopens : kind.opensBlock = true) (hb' : p.block m = .ok b') :
    b'.close < b.close ∧ ∀ o, b.otherwise = some o → m < o → b'.close < o := by
  obtain ⟨-, k, -, hfound, -⟩ := block_eq_ok hb
  have hclose := hfound.close
  constructor
  · rw [hclose]
    exact close_lt_of_walk hfound.walk (by omega) (by omega) hhead hopens hb'
  · intro o ho hmo
    rcases hfound.otherwise o ho with hs | ⟨j, hj, rfl, hwalk⟩
    · cases hs
    · exact close_lt_of_walk hwalk (by omega) hmo hhead hopens hb'

/-- Every block that is opened in the lines `[start, stop)` ends there. -/
def Closed (p : Program) (start stop : Int) : Prop :=
  ∀ {n : Int} {kind : Kind} {b : Block}, start ≤ n → n < stop → p.head? n = some kind →
    kind.opensBlock = true → p.block n = .ok b → b.close < stop

theorem Closed.mono {start start' stop : Int} (h : p.Closed start stop) (hle : start ≤ start') :
    p.Closed start' stop :=
  fun hn => h (Int.le_trans hle hn)

/-- The lines that a branch picks open no block that ends elsewhere. -/
theorem closed_chosen {n : Int} {b : Block} (hb : p.block n = .ok b) (value : Bool) :
    n < (b.chosen value).1 ∧ (b.chosen value).1 ≤ (b.chosen value).2 ∧
      (b.chosen value).2 ≤ b.close ∧ p.Closed (b.chosen value).1 (b.chosen value).2 := by
  obtain ⟨hheader, hlt, horder⟩ := block_order hb
  have hclosed : ∀ {start}, n < start → p.Closed start b.close :=
    fun hstart _ _ _ hn hm hhead hopens hb' =>
      (close_lt_close hb (Int.lt_of_lt_of_le hstart hn) hm hhead hopens hb').1
  unfold Block.chosen
  rw [hheader]
  cases ho : b.otherwise with
  | none =>
    cases value with
    | true =>
      exact ⟨Int.lt_succ n, Int.add_one_le_iff.2 hlt, Int.le_refl _, hclosed (Int.lt_succ n)⟩
    | false => exact ⟨hlt, Int.le_refl _, Int.le_refl _, hclosed hlt⟩
  | some o =>
    obtain ⟨hno, hoc⟩ := horder o ho
    cases value with
    | true =>
      refine ⟨Int.lt_succ n, Int.add_one_le_iff.2 hno, Int.le_of_lt hoc, ?_⟩
      intro m kind b' hn hm hhead hopens hb'
      have hmo : m < o := hm
      have hnm : n < m := Int.add_one_le_iff.1 hn
      exact (close_lt_close hb hnm (Int.lt_trans hmo hoc) hhead hopens hb').2 o ho hmo
    | false =>
      have hlow : n < o + 1 := Int.lt_trans hno (Int.lt_succ o)
      exact ⟨hlow, Int.add_one_le_iff.2 hoc, Int.le_refl _, hclosed hlow⟩

/-- No block reaches the last line. -/
theorem closed_last {last : Int} (hlast : p.last = .ok last) (start : Int) :
    p.Closed start (last + 1) := by
  intro n kind b _ _ _ _ hb
  obtain ⟨last', -, hlast', -, hclose⟩ := block_eq_ok hb
  cases hlast.symm.trans hlast'
  omega

end RobotMaze.Program

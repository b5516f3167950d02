import RobotMaze.Proofs.Program.Lookup
import Mathlib.Data.List.Forall2

/-!
# Programs with the same rows

The rows of a program are its lines with words.  Two programs may have the same rows up to columns
and still number them differently, because lines without words may stand anywhere between them.
What is asked about corresponding lines of such programs has corresponding answers.

* `Program.Corresponds` — the lines that are the same row in two programs;
* `Program.Relaid` — what is needed of corresponding lines, and `Program.relaid_corresponds`, that
  programs with the same wording have it;
* `Program.Relaid.next` — the next row, if there is one, is the same in both programs;
* `Program.Relaid.last`, `Program.Relaid.block` — last lines and blocks correspond.
-/

namespace RobotMaze

/-- Two reasons to stop: faults of the same origin on corresponding lines, or no faults. -/
def Stop.Alike (lines : Int → Int → Prop) : Stop → Stop → Prop
  | .failed e, .failed e' => e'.fault.origin = e.fault.origin ∧ lines e.line e'.line
  | .outOfRange, .outOfRange => True
  | .unfinished, .unfinished => True
  | _, _ => False

theorem Stop.Alike.mono {lines lines' : Int → Int → Prop} {e e' : Stop} (h : e.Alike lines e')
    (hlines : ∀ n n', lines n n' → lines' n n') : e.Alike lines' e' := by
  cases e with
  | failed err =>
    cases e' with
    | failed err' => exact ⟨h.1, hlines _ _ h.2⟩
    | _ => exact h
  | _ => cases e' <;> exact h

/-- Two answers to a question about corresponding lines. -/
def Program.Answers {α β : Type} (lines : Int → Int → Prop) (values : α → β → Prop) :
    Except Stop α → Except Stop β → Prop
  | .ok a, .ok b => values a b
  | .error e, .error e' => e.Alike lines e'
  | _, _ => False

theorem Program.Answers.mono {α β : Type} {lines lines' : Int → Int → Prop}
    {values values' : α → β → Prop} {x : Except Stop α} {y : Except Stop β}
    (h : Answers lines values x y) (hlines : ∀ n n', lines n n' → lines' n n')
    (hvalues : ∀ a b, values a b → values' a b) : Answers lines' values' x y := by
  cases x with
  | ok a =>
    cases y with
    | ok b => exact hvalues a b h
    | error e' => exact h.elim
  | error e =>
    cases y with
    | ok b => exact h.elim
    | error e' => exact Stop.Alike.mono h hlines

theorem Program.Answers.unfinished_iff {α β : Type} {lines : Int → Int → Prop}
    {values : α → β → Prop} {x : Except Stop α} {y : Except Stop β} (h : Answers lines values x y) :
    x = .error .unfinished ↔ y = .error .unfinished := by
  cases x with
  | ok a =>
    cases y with
    | ok b => simp
    | error e' => exact h.elim
  | error e =>
    cases y with
    | ok b => exact h.elim
    | error e' =>
      cases e with
      | unfinished =>
        cases e' with
        | unfinished => simp
        | _ => exact h.elim
      | _ =>
        cases e' with
        | unfinished => exact h.elim
        | _ => simp

namespace Program

variable {p p' : Program}

/-! ## Rows -/

/-- Every line can be read. -/
def Legible (p : Program) : Prop := ∀ n : Int, 1 ≤ n → n ≤ p.size → ∃ ts, p.tokens n = .ok ts

/-- The words of the rows, without their columns. -/
def wording (p : Program) : List (List (Kind × Text)) :=
  p.rows.map fun row => row.2.map fun t => (t.kind, t.literal)

/-- The lines `n` of `p` and `n'` of `p'` are the same row. -/
def Corresponds (p p' : Program) (n n' : Int) : Prop :=
  ∃ k : Nat, (p.rows.map Prod.fst)[k]? = some n ∧ (p'.rows.map Prod.fst)[k]? = some n'

theorem legible_iff :
    p.Legible ↔ ∀ i < p.size, (p.tokens (i + 1 : Nat)).toBool = true := by
  constructor
  · intro h i hi
    obtain ⟨ts, hts⟩ := h (i + 1 : Nat) (by omega) (by omega)
    rw [hts]
    rfl
  · intro h n hlow hup
    have hn := h (n - 1).toNat (by omega)
    rw [show (((n - 1).toNat + 1 : Nat) : Int) = n from by omega] at hn
    cases hts : p.tokens n with
    | ok ts => exact ⟨ts, rfl⟩
    | error e =>
      rw [hts] at hn
      cases hn

instance : DecidablePred Legible := fun _ => decidable_of_iff' _ legible_iff

/-- The rows are numbered from the top. -/
theorem rows_pairwise (p : Program) : (p.rows.map Prod.fst).Pairwise (· < ·) := by
  rw [List.pairwise_map]
  refine List.Pairwise.filterMap _ ?_ List.pairwise_lt_range
  intro i j hij row hi row' hj
  split at hi
  · split at hj
    · cases hi
      cases hj
      show (i : Int) + 1 < (j : Int) + 1
      omega
    · cases hj
  · cases hi

/-- Rows come in the order of their numbers. -/
theorem lt_iff_of_rows {i j : Nat} {m n : Int} (hm : (p.rows.map Prod.fst)[i]? = some m)
    (hn : (p.rows.map Prod.fst)[j]? = some n) : m < n ↔ i < j := by
  obtain ⟨hi, rfl⟩ := List.getElem?_eq_some_iff.1 hm
  obtain ⟨hj, rfl⟩ := List.getElem?_eq_some_iff.1 hn
  have hsorted := List.pairwise_iff_getElem.1 p.rows_pairwise
  rcases Nat.lt_trichotomy i j with hij | rfl | hji
  · exact iff_of_true (hsorted i j hi hj hij) hij
  · exact iff_of_false (Int.lt_irrefl _) (Nat.lt_irrefl _)
  · exact iff_of_false (Int.lt_asymm (hsorted j i hj hi hji)) (Nat.lt_asymm hji)

theorem Corresponds.symm {n n' : Int} (h : p.Corresponds p' n n') : p'.Corresponds p n' n := by
  obtain ⟨k, hn, hn'⟩ := h
  exact ⟨k, hn', hn⟩

/-- Every row has its counterpart in a program with as many rows. -/
theorem exists_corresponds (hlength : p'.rows.length = p.rows.length) {n : Int} {head : Token}
    {args : List Token} (hts : p.tokens n = .ok (head :: args)) : ∃ n', p.Corresponds p' n n' := by
  obtain ⟨k, hk⟩ := List.mem_iff_getElem?.1 (mem_rows.2 ⟨hts, List.cons_ne_nil _ _⟩)
  obtain ⟨hlt, -⟩ := List.getElem?_eq_some_iff.1 hk
  obtain ⟨row', hk'⟩ : ∃ row', p'.rows[k]? = some row' := ⟨_, List.getElem?_eq_getElem (by omega)⟩
  refine ⟨row'.1, k, ?_, ?_⟩
  · rw [List.getElem?_map, hk]
    rfl
  · rw [List.getElem?_map, hk']
    rfl

/-- The words of a row. -/
theorem tokens_of_rows {k : Nat} {n : Int} (h : (p.rows.map Prod.fst)[k]? = some n) :
    ∃ ts, p.tokens n = .ok ts ∧ ts ≠ [] ∧
      p.wording[k]? = some (ts.map fun t => (t.kind, t.literal)) := by
  rw [List.getElem?_map, Option.map_eq_some_iff] at h
  obtain ⟨⟨n, ts⟩, hk, rfl⟩ := h
  obtain ⟨hts, hne⟩ := mem_rows.1 (List.mem_of_getElem? hk)
  refine ⟨ts, hts, hne, ?_⟩
  rw [wording, List.getElem?_map, hk]
  rfl

theorem forall₂_alike {ts ts' : List Token}
    (h : ts'.map (fun t => (t.kind, t.literal)) = ts.map fun t => (t.kind, t.literal)) :
    List.Forall₂ (Token.Alike id fun _ _ => True) ts ts' := by
  rw [← List.forall₂_eq_eq_eq, List.forall₂_map_left_iff, List.forall₂_map_right_iff] at h
  refine (h.imp ?_).flip
  intro t' t ht
  obtain ⟨hkind, hliteral⟩ := Prod.mk.inj ht
  exact ⟨hkind, hliteral, trivial⟩

/-! ## Other layouts -/

/-- Two programs with the same rows: `lines` tells which lines are the same row, and `texts` what a
word of the first program is called in the second. -/
structure Relaid (texts : Text → Text) (lines : Int → Int → Prop) (p p' : Program) : Prop where
  legible : p.Legible
  legible' : p'.Legible
  left : ∀ {n head args}, p.tokens n = .ok (head :: args) → ∃ n', lines n n'
  right : ∀ {n' head args}, p'.tokens n' = .ok (head :: args) → ∃ n, lines n n'
  words : ∀ {n n'}, lines n n' → ∃ head args head' args', p.tokens n = .ok (head :: args) ∧
    p'.tokens n' = .ok (head' :: args') ∧
      List.Forall₂ (Token.Alike texts fun _ _ => True) (head :: args) (head' :: args')
  lt_iff : ∀ {m m' n n'}, lines m m' → lines n n' → (m < n ↔ m' < n')

/-- Programs with the same wording have the same rows. -/
theorem relaid_corresponds (h : p.Legible) (h' : p'.Legible) (hwording : p'.wording = p.wording) :
    Relaid id (p.Corresponds p') p p' := by
  have hlength : p'.rows.length = p.rows.length := by
    have := congrArg List.length hwording
    rwa [wording, wording, List.length_map, List.length_map] at this
  refine ⟨h, h', exists_corresponds hlength, ?_, ?_, ?_⟩
  · intro n' head args hts
    obtain ⟨n, hn⟩ := exists_corresponds hlength.symm hts
    exact ⟨n, hn.symm⟩
  · rintro n n' ⟨k, hn, hn'⟩
    obtain ⟨ts, hts, hne, hk⟩ := tokens_of_rows hn
    obtain ⟨ts', hts', hne', hk'⟩ := tokens_of_rows hn'
    rw [hwording, hk, Option.some.injEq] at hk'
    obtain ⟨head, args, rfl⟩ := List.exists_cons_of_ne_nil hne
    obtain ⟨head', args', rfl⟩ := List.exists_cons_of_ne_nil hne'
    exact ⟨head, args, head', args', hts, hts', forall₂_alike hk'.symm⟩
  · rintro m m' n n' ⟨i, hm, hm'⟩ ⟨j, hn, hn'⟩
    rw [lt_iff_of_rows hm hn, lt_iff_of_rows hm' hn']

/-- The rows above line `a` of `p` are those above line `a'` of `p'`. -/
structure Cut (lines : Int → Int → Prop) (p p' : Program) (a a' : Int) : Prop where
  pos : 1 ≤ a
  le : a ≤ p.size + 1
  pos' : 1 ≤ a'
  le' : a' ≤ p'.size + 1
  above : ∀ {n n'}, lines n n' → (n < a ↔ n' < a')

/-- Lines that can be read have no words, or one of them is the first that has. -/
theorem Legible.first (h : p.Legible) {a b : Int} (ha : 1 ≤ a) (hb : b ≤ p.size + 1) :
    p.Blank a b ∨ ∃ n head args, a ≤ n ∧ n < b ∧ p.tokens n = .ok (head :: args) ∧
      p.Blank a n := by
  rcases p.blank_or_first a b with hblank | ⟨n, hlow, hup, hn, hblank⟩
  · exact .inl hblank
  · obtain ⟨ts, hts⟩ := h n (by omega) (by omega)
    cases ts with
    | nil => exact absurd hts hn
    | cons head args => exact .inr ⟨n, head, args, hlow, hup, hts, hblank⟩

theorem Legible.last (h : p.Legible) : ∃ l, p.last = .ok l := by
  have hupTo : ∀ k ≤ p.size, ∃ l, p.lastUpTo k = .ok l := by
    intro k hk
    induction k with
    | zero => exact ⟨0, rfl⟩
    | succ k ih =>
      obtain ⟨ts, hts⟩ := h (k + 1) (by omega) (by omega)
      rw [lastUpTo_succ, hts]
      cases ts with
      | nil => exact ih (by omega)
      | cons head args => exact ⟨_, rfl⟩
  exact hupTo p.size (Nat.le_refl _)

namespace Relaid

variable {texts : Text → Text} {lines : Int → Int → Prop} {n n' : Int}

theorem alike (h : Relaid texts lines p p') (hn : lines n n') {ts ts' : List Token}
    (hts : p.tokens n = .ok ts) (hts' : p'.tokens n' = .ok ts') :
    List.Forall₂ (Token.Alike texts fun _ _ => True) ts ts' := by
  obtain ⟨head, args, head', args', hwords, hwords', halike⟩ := h.words hn
  cases hts.symm.trans hwords
  cases hts'.symm.trans hwords'
  exact halike

theorem cut (h : Relaid texts lines p p') (hn : lines n n') : Cut lines p p' n n' := by
  obtain ⟨head, args, head', args', hts, hts', -⟩ := h.words hn
  obtain ⟨hlow, hup⟩ := bounds_of_tokens hts
  obtain ⟨hlow', hup'⟩ := bounds_of_tokens hts'
  exact ⟨hlow, by omega, hlow', by omega, fun hm => h.lt_iff hm hn⟩

theorem cut_succ (h : Relaid texts lines p p') (hn : lines n n') :
    Cut lines p p' (n + 1) (n' + 1) := by
  obtain ⟨head, args, head', args', hts, hts', -⟩ := h.words hn
  obtain ⟨hlow, hup⟩ := bounds_of_tokens hts
  obtain ⟨hlow', hup'⟩ := bounds_of_tokens hts'
  refine ⟨by omega, by omega, by omega, by omega, fun hm => ?_⟩
  have hlt := h.lt_iff hn hm
  omega

/-- Between corresponding places there are no rows in either program, or there are in both. -/
theorem blank (h : Relaid texts lines p p') {a a' b b' : Int} (ha : Cut lines p p' a a')
    (hb : Cut lines p p' b b') (hblank : p.Blank a b) : p'.Blank a' b' := by
  intro m' hlow hup
  have hpos := ha.pos'
  have hle := hb.le'
  obtain ⟨ts, hts⟩ := h.legible' m' (by omega) (by omega)
  cases ts with
  | nil => exact hts
  | cons head args =>
    -- the counterpart of this row would stand between `a` and `b`
    obtain ⟨m, hm⟩ := h.right hts
    have habove := ha.above hm
    have hlt := (hb.above hm).2 hup
    obtain ⟨_, _, _, _, hwords, -⟩ := h.words hm
    rw [hblank m (by omega) hlt] at hwords
    cases hwords

/-- The next row, if there is one, is the same in both programs. -/
theorem next (h : Relaid texts lines p p') {a a' b b' : Int} (ha : Cut lines p p' a a')
    (hb : Cut lines p p' b b') :
    p.Blank a b ∧ p'.Blank a' b' ∨ ∃ n n', lines n n' ∧ a ≤ n ∧ n < b ∧ a' ≤ n' ∧ n' < b' ∧
      p.Blank a n ∧ p'.Blank a' n' := by
  rcases h.legible.first ha.pos hb.le with hblank | ⟨n, head, args, hlow, hup, hts, hblank⟩
  · exact .inl ⟨hblank, h.blank ha hb hblank⟩
  · obtain ⟨n', hn⟩ := h.left hts
    have hlow' := ha.above hn
    have hup' := (hb.above hn).1 hup
    exact .inr ⟨n, n', hn, hlow, hup, by omega, hup', hblank, h.blank ha (h.cut hn) hblank⟩

/-- The last lines correspond, if there are any rows. -/
theorem last (h : Relaid texts lines p p') :
    ∃ l l', p.last = .ok l ∧ p'.last = .ok l' ∧ (l = 0 ∧ l' = 0 ∨ lines l l') := by
  obtain ⟨l, hl⟩ := h.legible.last
  obtain ⟨l', hl'⟩ := h.legible'.last
  have hlast := last_eq_ok hl
  have hlast' := last_eq_ok hl'
  refine ⟨l, l', hl, hl', ?_⟩
  by_cases hzero : l' = 0
  · refine .inl ⟨?_, hzero⟩
    by_contra hne
    obtain ⟨head, args, hts⟩ := hlast.words hne
    obtain ⟨n', hn⟩ := h.left hts
    obtain ⟨_, _, _, _, -, hts', -⟩ := h.words hn
    have hle := hlast'.le_of_tokens hts'
    have hpos := (bounds_of_tokens hts').1
    omega
  · right
    obtain ⟨head, args, hts'⟩ := hlast'.words hzero
    obtain ⟨n, hn⟩ := h.right hts'
    obtain ⟨_, _, _, _, hts, -⟩ := h.words hn
    have hle := hlast.le_of_tokens hts
    by_cases hlt : n < l
    · -- the counterpart of the line `l` would stand behind the line `l'`
      have hpos := (bounds_of_tokens hts).1
      obtain ⟨_, _, hwords⟩ := hlast.words (by omega)
      obtain ⟨m', hm⟩ := h.left hwords
      obtain ⟨_, _, _, _, -, hm', -⟩ := h.words hm
      have hle' := hlast'.le_of_tokens hm'
      have hlt' := (h.lt_iff hn hm).1 hlt
      omega
    · rwa [show l = n from by omega]

end Relaid

/-! ## Blocks -/

/-- An `OTHERWISE` is welcome in both programs, or it has the same fault up to the lines it
names. -/
theorem otherwiseFault_alike {texts : Text → Text} {lines : Int → Int → Prop}
    {opener opener' line line' : List Token}
    (hopener : List.Forall₂ (Token.Alike texts fun _ _ => True) opener opener')
    (hline : List.Forall₂ (Token.Alike texts fun _ _ => True) line line') {seen seen' : Option Int}
    (hseen : Option.Rel lines seen seen') (header header' : Int) :
    Answers lines (Option.Rel fun fault fault' => fault'.origin = fault.origin)
      (otherwiseFault opener header seen line) (otherwiseFault opener' header' seen' line') := by
  unfold otherwiseFault
  rw [← hline.length_eq]
  by_cases hlength : line.length ≠ 1
  · rw [if_pos hlength, if_pos hlength]
    exact .some rfl
  · rw [if_neg hlength, if_neg hlength]
    cases hopener with
    | nil => trivial
    | cons hhead _ =>
      dsimp only
      rw [hhead.kind]
      split
      · exact .some rfl
      · cases hseen with
        | none => exact .none
        | some _ => exact .some rfl

/-- The search for an end passes over lines without words. -/
theorem closeFrom_blank {n : Int} {j : Nat} (hblank : p.Blank n (n + j)) (opener : List Token)
    (header : Int) (count d : Nat) (seen : Option Int) :
    p.closeFrom opener header (j + count) n d seen
      = p.closeFrom opener header count (n + j) d seen := by
  induction j generalizing n with
  | zero => simp
  | succ j ih =>
    have hrest : p.Blank (n + 1) (n + 1 + j) := fun m hlow hup => hblank m (by omega) (by omega)
    rw [Nat.add_right_comm, closeFrom_succ, hblank n (by omega) (by omega)]
    simp only [bind, Except.bind]
    rw [ih hrest, show n + 1 + (j : Int) = n + (j + 1 : Nat) from by omega]

namespace Relaid

variable {texts : Text → Text} {lines : Int → Int → Prop} {n n' : Int}

variable {header header' : Int} {head head' : Token} {args args' : List Token}

/-- At the same row, searches end in corresponding ways or go on in the same way. -/
theorem closeFrom_row (h : Relaid texts lines p p') (hn : lines n n')
    (hopener : List.Forall₂ (Token.Alike texts fun _ _ => True) (head :: args) (head' :: args'))
    {count count' d : Nat} {seen seen' : Option Int} (hseen : Option.Rel lines seen seen')
    (hrest : ∀ {d seen seen'}, Option.Rel lines seen seen' → Answers lines (Block.Alike lines)
      (p.closeFrom (head :: args) header count (n + 1) d seen)
      (p'.closeFrom (head' :: args') header' count' (n' + 1) d seen')) :
    Answers lines (Block.Alike lines)
      (p.closeFrom (head :: args) header (count + 1) n d seen)
      (p'.closeFrom (head' :: args') header' (count' + 1) n' d seen') := by
  obtain ⟨first, more, first', more', hts, hts', hwords⟩ := h.words hn
  have hfault := otherwiseFault_alike hopener hwords hseen header header'
  have hkind := (List.forall₂_cons.1 hwords).1.kind
  rw [Program.closeFrom_succ, Program.closeFrom_succ, hts, hts']
  simp only [bind, Except.bind]
  rw [hkind]
  cases first.kind with
  | branch => exact hrest hseen
  | loop => exact hrest hseen
  | close =>
    cases d with
    | zero => exact ⟨hseen, hn⟩
    | succ d => exact hrest hseen
  | otherwise =>
    cases d with
    | succ d => exact hrest hseen
    | zero =>
      revert hfault
      cases otherwiseFault (head :: args) header seen (first :: more) with
      | error e =>
        cases otherwiseFault (head' :: args') header' seen' (first' :: more') with
        | error e' => exact id
        | ok found' => exact False.elim
      | ok found =>
        cases otherwiseFault (head' :: args') header' seen' (first' :: more') with
        | error e' => exact False.elim
        | ok found' =>
          intro hfound
          cases hfound with
          | none => exact hrest (.some hn)
          | some horigin => exact ⟨horigin, hn⟩
  | _ => exact hrest hseen

/-- Searches from corresponding places on come to corresponding ends. -/
theorem closeFrom (h : Relaid texts lines p p') (hheader : lines header header')
    (hopener : List.Forall₂ (Token.Alike texts fun _ _ => True) (head :: args) (head' :: args'))
    {count count' d : Nat} {seen seen' : Option Int} (hseen : Option.Rel lines seen seen')
    (hn : Cut lines p p' n n') (hstop : Cut lines p p' (n + count) (n' + count')) :
    Answers lines (Block.Alike lines)
      (p.closeFrom (head :: args) header count n d seen)
      (p'.closeFrom (head' :: args') header' count' n' d seen') := by
  induction count using Nat.strongRecOn generalizing count' n n' d seen seen' with
  | ind count ih =>
    rcases h.next hn hstop with ⟨hblank, hblank'⟩ |
      ⟨m, m', hm, hlow, hup, hlow', hup', hblank, hblank'⟩
    · -- no row is left, and the end is missing
      have hleft := closeFrom_blank hblank (head :: args) header 0 d seen
      have hright := closeFrom_blank hblank' (head' :: args') header' 0 d seen'
      rw [Nat.add_zero] at hleft hright
      rw [hleft, hright]
      exact ⟨by rw [(List.forall₂_cons.1 hopener).1.kind], hheader⟩
    · obtain ⟨j, rfl⟩ : ∃ j : Nat, m = n + j := ⟨(m - n).toNat, by omega⟩
      obtain ⟨j', rfl⟩ : ∃ j' : Nat, m' = n' + j' := ⟨(m' - n').toNat, by omega⟩
      obtain ⟨k, rfl⟩ : ∃ k, count = j + (k + 1) := ⟨count - j - 1, by omega⟩
      obtain ⟨k', rfl⟩ : ∃ k', count' = j' + (k' + 1) := ⟨count' - j' - 1, by omega⟩
      rw [closeFrom_blank hblank, closeFrom_blank hblank']
      refine h.closeFrom_row hm hopener hseen fun hseen => ?_
      refine ih k (by omega) hseen (h.cut_succ hm) ?_
      rwa [show n + (j : Int) + 1 + k = n + (j + (k + 1) : Nat) from by omega,
        show n' + (j' : Int) + 1 + k' = n' + (j' + (k' + 1) : Nat) from by omega]

/-- Blocks on corresponding lines correspond, or they are wrong in the same way. -/
theorem block (h : Relaid texts lines p p') (hn : lines n n') :
    Answers lines (Block.Alike lines) (p.block n) (p'.block n') := by
  obtain ⟨head, args, head', args', hts, hts', hwords⟩ := h.words hn
  obtain ⟨l, l', hl, hl', hlast⟩ := h.last
  have hle := (last_eq_ok hl).le_of_tokens hts
  have hpos := (bounds_of_tokens hts).1
  have hlines : lines l l' := hlast.resolve_left (by omega)
  have hlt := h.lt_iff hn hlines
  have hle' := (last_eq_ok hl').le_of_tokens hts'
  rw [Program.block_eq, Program.block_eq, hl, hl', hts, hts']
  refine h.closeFrom hn hwords .none (h.cut_succ hn) ?_
  by_cases hltl : n < l
  · rw [show n + 1 + ((l - n - 1).toNat : Int) = l from by omega,
      show n' + 1 + ((l' - n' - 1).toNat : Int) = l' from by omega]
    exact h.cut hlines
  · rw [show n + 1 + ((l - n - 1).toNat : Int) = n + 1 from by omega,
      show n' + 1 + ((l' - n' - 1).toNat : Int) = n' + 1 from by omega]
    exact h.cut_succ hn

end Relaid

end Program

end RobotMaze

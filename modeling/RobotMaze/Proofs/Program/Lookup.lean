import RobotMaze.Expr.Parse
import RobotMaze.Program.Block
import RobotMaze.Proofs.Program.Words
import Mathlib.Tactic.Common

/-!
# Looking lines up

What is asked about the lines of a program has an answer or a fault of the source: no line outside
of the program is ever needed, and no cap plays a part.  The fault stands at a place of the program.

* `Program.Reports` — an error that stands at a place of the program;
* `Program.Blames` — to stop because of such an error;
* `Program.tokens_eq_error`, `Program.last_eq_error`, `Program.block_eq_error` — the only way for a
  question to go wrong is a fault;
* `Program.last_eq_ok` — the last line has words, and no line behind it has any;
* `Program.Ends` — the last line closes the program.
-/

namespace RobotMaze

/-! ## Faults -/

/-- A fault that is not a loop's that exceeds its cap. -/
abbrev Fault.Uncapped (fault : Fault) : Prop := ∀ cap, fault ≠ .loopExceeded cap

/-- To stop because of a fault that has nothing to do with a cap. -/
def Stop.IsFault (e : Stop) : Prop := ∃ err, e = .failed err ∧ err.fault.Uncapped

/-- Whether a fault is one that is only guarded against: what is checked earlier rules it out. -/
def Fault.isGuard : Fault → Bool
  | invalidTerm => true
  | notSensor _ => true
  | notAction _ => true
  | noMaze _ => true
  | _ => false

/-- A fault that is neither a loop's that exceeds its cap nor only guarded against. -/
structure Fault.Plain (fault : Fault) : Prop where
  uncapped : fault.Uncapped
  real : fault.isGuard = false

theorem Line.plain_faultOf (w : Text) : (faultOf w).Plain := by
  unfold faultOf
  split <;> exact ⟨nofun, rfl⟩

/-- An expression that cannot be read is reported on its line, at its first word if it has one. -/
theorem Expr.ofTokens_eq_error {tokens : List Token} {line : Int} {err : Error}
    (h : ofTokens tokens line = .error err) :
    err.fault.Plain ∧ err.line = line ∧ (err.column = 0 ∨ ∃ t ∈ tokens, t.column = err.column) := by
  cases tokens with
  | nil =>
    cases h
    exact ⟨⟨nofun, rfl⟩, rfl, .inl rfl⟩
  | cons first rest =>
    simp only [ofTokens] at h
    split at h
    · cases h
    · cases h
      exact ⟨⟨nofun, rfl⟩, rfl, .inr ⟨first, List.mem_cons_self, rfl⟩⟩

/-! ## Words and blocks that correspond -/

/-- The same fault where words are called otherwise. -/
def Fault.reword (texts : Text → Text) : Fault → Fault
  | invalidPreset word => invalidPreset (texts word)
  | notStatement word => notStatement (texts word)
  | undeclared name => undeclared (texts name)
  | fault => fault

@[simp] theorem Fault.reword_id (fault : Fault) : fault.reword id = fault := by
  cases fault <;> rfl

@[simp] theorem Fault.origin_reword (texts : Text → Text) (fault : Fault) :
    (fault.reword texts).origin = fault.origin := by
  cases fault <;> rfl

/-- Two words of the same kind, of which the second is called as `texts` tells. -/
structure Token.Alike (texts : Text → Text) (columns : Int → Int → Prop) (t t' : Token) :
    Prop where
  kind : t'.kind = t.kind
  literal : t'.literal = texts t.literal
  column : columns t.column t'.column

theorem Token.literals_alike {texts : Text → Text} {columns : Int → Int → Prop}
    {ts ts' : List Token} (h : List.Forall₂ (Token.Alike texts columns) ts ts') :
    Token.literals ts' = (Token.literals ts).map texts := by
  induction h with
  | nil => rfl
  | cons ht _ ih => exact congrArg₂ List.cons ht.literal ih

/-- Two blocks on corresponding lines. -/
structure Block.Alike (lines : Int → Int → Prop) (b b' : Block) : Prop where
  otherwise : Option.Rel lines b.otherwise b'.otherwise
  close : lines b.close b'.close

namespace Program

variable {p : Program}

/-! ## Lines -/

/-- Only lines of the program have words. -/
theorem bounds_of_tokens {n : Int} {ts : List Token} (h : p.tokens n = .ok ts) :
    1 ≤ n ∧ n ≤ p.size := by
  rw [tokens, line?] at h
  by_cases hn : 1 ≤ n
  · refine ⟨hn, ?_⟩
    by_contra hsize
    have hout : p.lines[(n - 1).toNat]? = none := by
      rw [List.getElem?_eq_none_iff, ← size]
      omega
    rw [if_pos hn, hout] at h
    cases h
  · rw [if_neg hn] at h
    cases h

/-- An error that stands on a line of the program and, if it has a column, at a word of the line or
at what keeps the line from being read. -/
structure Reports (p : Program) (e : Error) : Prop where
  low : 1 ≤ e.line
  up : e.line ≤ p.size
  column : e.column = 0 ∨ p.tokens e.line = .error (.failed e) ∨
    ∃ ts, p.tokens e.line = .ok ts ∧ ∃ t ∈ ts, t.column = e.column
  real : e.fault.isGuard = false

theorem reports_line {n : Int} {ts : List Token} {fault : Fault} (hts : p.tokens n = .ok ts)
    (hfault : fault.isGuard = false) : p.Reports ⟨fault, n, 0⟩ :=
  ⟨(bounds_of_tokens hts).1, (bounds_of_tokens hts).2, .inl rfl, hfault⟩

theorem reports_word {n : Int} {ts : List Token} {t : Token} {fault : Fault}
    (hts : p.tokens n = .ok ts) (ht : t ∈ ts) (hfault : fault.isGuard = false) :
    p.Reports ⟨fault, n, t.column⟩ :=
  ⟨(bounds_of_tokens hts).1, (bounds_of_tokens hts).2, .inr (.inr ⟨ts, hts, t, ht, rfl⟩), hfault⟩

/-- To stop because of an error in the program that has nothing to do with a cap. -/
def Blames (p : Program) (e : Stop) : Prop :=
  ∃ err, e = .failed err ∧ err.fault.Uncapped ∧ p.Reports err

theorem Blames.isFault {e : Stop} (h : p.Blames e) : e.IsFault := by
  obtain ⟨err, rfl, huncapped, -⟩ := h
  exact ⟨err, rfl, huncapped⟩

theorem blames_line {n : Int} {ts : List Token} {fault : Fault} (hts : p.tokens n = .ok ts)
    (hfault : fault.Plain) : p.Blames (.failed ⟨fault, n, 0⟩) :=
  ⟨_, rfl, hfault.uncapped, reports_line hts hfault.real⟩

theorem blames_word {n : Int} {ts : List Token} {t : Token} {fault : Fault}
    (hts : p.tokens n = .ok ts) (ht : t ∈ ts) (hfault : fault.Plain) :
    p.Blames (.failed ⟨fault, n, t.column⟩) :=
  ⟨_, rfl, hfault.uncapped, reports_word hts ht hfault.real⟩

theorem exists_line? {n : Int} (hn : 1 ≤ n) (hsize : n ≤ p.size) :
    ∃ line, p.line? n = some line := by
  have hlt : (n - 1).toNat < p.lines.length := by
    rw [size] at hsize
    omega
  exact ⟨p.lines[(n - 1).toNat], by rw [line?, if_pos hn, List.getElem?_eq_getElem hlt]⟩

theorem tokens_eq_error {n : Int} {e : Stop} (hn : 1 ≤ n) (hsize : n ≤ p.size)
    (h : p.tokens n = .error e) : p.Blames e := by
  obtain ⟨line, hline⟩ := exists_line? hn hsize
  rw [tokens, hline] at h
  cases hread : Token.ofLine line n with
  | ok ts =>
    simp only [hread] at h
    cases h
  | error err =>
    obtain ⟨before, piece, rest, -, -, -, herr⟩ := Token.ofLine_eq_error hread
    have hplain := Line.plain_faultOf piece.text
    have htokens : p.tokens n = .error (.failed err) := by
      simp only [tokens, hline, hread]
      rfl
    simp only [hread] at h
    cases h
    subst herr
    exact ⟨_, rfl, hplain.uncapped, hn, hsize, .inr (.inl htokens), hplain.real⟩

/-- An expression on a line that cannot be read is an error in the program. -/
theorem ofTokens_eq_error {n : Int} {ts us : List Token} {e : Stop} (hts : p.tokens n = .ok ts)
    (hus : us ⊆ ts) (h : (Expr.ofTokens us n).mapError .failed = .error e) : p.Blames e := by
  obtain ⟨hlow, hup⟩ := bounds_of_tokens hts
  cases hread : Expr.ofTokens us n with
  | ok expr =>
    rw [hread] at h
    cases h
  | error err =>
    rw [hread] at h
    cases h
    obtain ⟨hplain, rfl, hcolumn⟩ := Expr.ofTokens_eq_error hread
    refine ⟨err, rfl, hplain.uncapped, hlow, hup, hcolumn.imp_right ?_, hplain.real⟩
    rintro ⟨t, ht, hcolumn⟩
    exact .inr ⟨ts, hts, t, hus ht, hcolumn⟩

/-- The lines from `a` up to `b` have no words. -/
def Blank (p : Program) (a b : Int) : Prop := ∀ n, a ≤ n → n < b → p.tokens n = .ok []

/-- Lines have no words, or one of them is the first that has, or that cannot be read. -/
theorem blank_or_first (p : Program) (a b : Int) :
    p.Blank a b ∨ ∃ n, a ≤ n ∧ n < b ∧ p.tokens n ≠ .ok [] ∧ p.Blank a n := by
  generalize hk : (b - a).toNat = k
  induction k generalizing a with
  | zero =>
    left
    intro n hlow hup
    omega
  | succ k ih =>
    by_cases hts : p.tokens a = .ok []
    · have hblank : ∀ {c}, p.Blank (a + 1) c → p.Blank a c := by
        intro c hc n hlow hup
        by_cases hna : n = a
        · rw [hna, hts]
        · exact hc n (by omega) hup
      rcases ih (a + 1) (by omega) with hrest | ⟨n, hlow, hup, hn, hrest⟩
      · exact .inl (hblank hrest)
      · exact .inr ⟨n, by omega, hup, hn, hblank hrest⟩
    · exact .inr ⟨a, Int.le_refl a, by omega, hts, fun n hlow hup => by omega⟩

/-- The lines that can be read and have words, with their numbers. -/
def rows (p : Program) : List (Int × List Token) :=
  (List.range p.size).filterMap fun i : Nat =>
    match p.tokens (i + 1) with
    | .ok (head :: args) => some (i + 1, head :: args)
    | _ => none

theorem mem_rows {n : Int} {ts : List Token} :
    (n, ts) ∈ p.rows ↔ p.tokens n = .ok ts ∧ ts ≠ [] := by
  unfold rows
  rw [List.mem_filterMap]
  constructor
  · rintro ⟨i, -, hi⟩
    split at hi
    · next hts =>
      cases hi
      exact ⟨hts, List.cons_ne_nil _ _⟩
    · cases hi
  · rintro ⟨hts, hne⟩
    obtain ⟨hlow, hup⟩ := bounds_of_tokens hts
    obtain ⟨head, args, rfl⟩ := List.exists_cons_of_ne_nil hne
    refine ⟨(n - 1).toNat, List.mem_range.2 (by omega), ?_⟩
    rw [show (((n - 1).toNat : Nat) : Int) + 1 = n from by omega, hts]

/-- The first words of the lines that can be read and have any. -/
def heads (p : Program) : List Token := p.rows.filterMap fun row => row.2.head?

theorem mem_heads {n : Int} {head : Token} {args : List Token}
    (h : p.tokens n = .ok (head :: args)) : head ∈ p.heads :=
  List.mem_filterMap.2 ⟨_, mem_rows.2 ⟨h, List.cons_ne_nil _ _⟩, rfl⟩

/-! ## The last line -/

/-- What is known of the last of the first `k` lines that has words. -/
structure IsLast (p : Program) (k : Nat) (l : Int) : Prop where
  nonneg : 0 ≤ l
  le : l ≤ k
  words : l ≠ 0 → ∃ head args, p.tokens l = .ok (head :: args)
  blank : ∀ n, l < n → n ≤ k → p.tokens n = .ok []

theorem lastUpTo_eq_ok {k : Nat} {l : Int} (h : p.lastUpTo k = .ok l) : p.IsLast k l := by
  induction k with
  | zero =>
    cases h
    exact ⟨by omega, by omega, fun hne => absurd rfl hne, fun n hn hk => by omega⟩
  | succ k ih =>
    rw [lastUpTo_succ] at h
    cases hts : p.tokens (k + 1) with
    | error e =>
      rw [hts] at h
      cases h
    | ok ts =>
      rw [hts] at h
      cases ts with
      | nil =>
        obtain ⟨hnonneg, hle, hwords, hblank⟩ := ih h
        refine ⟨hnonneg, by omega, hwords, fun n hn hk => ?_⟩
        by_cases hnk : n = k + 1
        · rw [hnk, hts]
        · exact hblank n hn (by omega)
      | cons head args =>
        cases h
        exact ⟨by omega, by omega, fun _ => ⟨head, args, hts⟩, fun n hn hk => by omega⟩

theorem lastUpTo_eq_error {k : Nat} {e : Stop} (hk : k ≤ p.size) (h : p.lastUpTo k = .error e) :
    p.Blames e := by
  induction k with
  | zero => cases h
  | succ k ih =>
    rw [lastUpTo_succ] at h
    cases hts : p.tokens (k + 1) with
    | error e' =>
      rw [hts] at h
      cases h
      exact tokens_eq_error (by omega) (by omega) hts
    | ok ts =>
      rw [hts] at h
      cases ts with
      | nil => exact ih (by omega) h
      | cons head args => cases h

theorem last_eq_ok {l : Int} (h : p.last = .ok l) : p.IsLast p.size l := lastUpTo_eq_ok h

theorem last_eq_error {e : Stop} (h : p.last = .error e) : p.Blames e :=
  lastUpTo_eq_error (Nat.le_refl _) h

/-- No line with words stands behind the last line. -/
theorem IsLast.le_of_tokens {l n : Int} {head : Token} {args : List Token} (h : p.IsLast p.size l)
    (hts : p.tokens n = .ok (head :: args)) : n ≤ l := by
  by_contra hlt
  rw [h.blank n (by omega) (bounds_of_tokens hts).2] at hts
  cases hts

/-- The last line that has words closes the program. -/
structure Ends (p : Program) (last : Int) : Prop where
  isLast : p.last = .ok last
  close : ∃ t, p.tokens last = .ok [t] ∧ t.kind = .close

theorem Ends.bounds {last : Int} (h : p.Ends last) : 1 ≤ last ∧ last ≤ p.size := by
  obtain ⟨t, hts, -⟩ := h.close
  exact bounds_of_tokens hts

/-! ## Blocks -/

theorem otherwiseFault_eq_error {head : Token} {args line : List Token} {header : Int}
    {seen : Option Int} {e : Stop} (h : otherwiseFault (head :: args) header seen line = .error e) :
    False := by
  unfold otherwiseFault at h
  split at h
  · cases h
  · dsimp only at h
    split at h
    · cases h
    · split at h <;> cases h

theorem otherwiseFault_eq_some {opener line : List Token} {header : Int} {seen : Option Int}
    {fault : Fault} (h : otherwiseFault opener header seen line = .ok (some fault)) :
    fault.Plain := by
  unfold otherwiseFault at h
  split at h
  · cases h
    exact ⟨nofun, rfl⟩
  · split at h
    · cases h
    · split at h
      · cases h
        exact ⟨nofun, rfl⟩
      · split at h
        · cases h
          exact ⟨nofun, rfl⟩
        · cases h

theorem closeFrom_eq_error {head : Token} {args : List Token} {header n : Int} {count d : Nat}
    {seen : Option Int} {e : Stop} (hheader : p.tokens header = .ok (head :: args)) (hn : 1 ≤ n)
    (hcount : n + count ≤ p.size + 1)
    (h : p.closeFrom (head :: args) header count n d seen = .error e) : p.Blames e := by
  induction count generalizing n d seen with
  | zero =>
    rw [closeFrom_zero] at h
    cases h
    exact blames_line hheader ⟨nofun, rfl⟩
  | succ count ih =>
    rw [closeFrom_succ] at h
    cases hts : p.tokens n with
    | error e' =>
      rw [hts] at h
      cases h
      exact tokens_eq_error hn (by omega) hts
    | ok ts =>
      rw [hts] at h
      -- wherever the search goes on, it goes on with the next line
      have hrest : ∀ {d' seen'},
          p.closeFrom (head :: args) header count (n + 1) d' seen' = .error e →
          p.Blames e := fun h => ih (by omega) (by omega) h
      cases ts with
      | nil => exact hrest h
      | cons first more =>
        simp only [bind, Except.bind] at h
        split at h
        · exact hrest h
        · exact hrest h
        · cases h
        · exact hrest h
        · split at h
          · next he => exact (otherwiseFault_eq_error he).elim
          · next found hfound =>
            split at h
            · cases h
              exact blames_line hts (otherwiseFault_eq_some hfound)
            · exact hrest h
        · exact hrest h

theorem block_eq_error {n : Int} {head : Token} {args : List Token} {e : Stop}
    (hts : p.tokens n = .ok (head :: args)) (h : p.block n = .error e) : p.Blames e := by
  have hbounds := bounds_of_tokens hts
  rw [block_eq] at h
  cases hlast : p.last with
  | error e' =>
    rw [hlast] at h
    cases h
    exact last_eq_error hlast
  | ok last =>
    have hle := (last_eq_ok hlast).le
    rw [hlast, hts] at h
    exact closeFrom_eq_error hts (by omega) (by omega) h

end Program

end RobotMaze

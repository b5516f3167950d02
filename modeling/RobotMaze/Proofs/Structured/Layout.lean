import RobotMaze.Proofs.Structured.Code

/-!
# Where the blocks of a structured program are

The search for the end of a block counts the blocks that are opened and closed on the way.  The
lines of a structured program open and close in pairs, so the search steps over whole blocks.

* `Program.closeFrom_lines` — the search goes past the lines of a block;
* `Program.block_opening` and `Program.block_choice` — so it finds where a statement ends;
* `Code.holds_source` and `Code.last_source` — what is read from the source of a program.
-/

namespace RobotMaze

open Structured

/-! ## Lines that the search meets -/

namespace Program

variable {p : Program} {opener : List Token} {header n : Int} {w : Text} {words : List Text}

theorem closeFrom_opens (h : p.Reads n (w :: words)) (hw : (Line.kindOf w).opensBlock = true)
    (count depth : Nat) (seen : Option Int) :
    p.closeFrom opener header (count + 1) n depth seen
      = p.closeFrom opener header count (n + 1) (depth + 1) seen := by
  obtain ⟨head, args, hts, hkind, -⟩ := h.cons
  rw [closeFrom_succ, hts]
  rw [← hkind] at hw
  cases hk : head.kind with
  | branch => simp only [bind, Except.bind, hk]
  | loop => simp only [bind, Except.bind, hk]
  | _ =>
    rw [hk] at hw
    cases hw

theorem closeFrom_passes (h : p.Reads n (w :: words))
    (hw : Line.kindOf w = .ident ∨ ∃ a, Line.kindOf w = .action a) (count depth : Nat)
    (seen : Option Int) :
    p.closeFrom opener header (count + 1) n depth seen
      = p.closeFrom opener header count (n + 1) depth seen := by
  obtain ⟨head, args, hts, hkind, -⟩ := h.cons
  rw [closeFrom_succ, hts]
  rw [← hkind] at hw
  rcases hw with hk | ⟨a, hk⟩
  · simp only [bind, Except.bind, hk]
  · simp only [bind, Except.bind, hk]

/-- An `END` inside closes the innermost block. -/
theorem closeFrom_closes_inner (h : p.Reads n [Kind.close.text]) (count depth : Nat)
    (seen : Option Int) :
    p.closeFrom opener header (count + 1) n (depth + 1) seen
      = p.closeFrom opener header count (n + 1) depth seen := by
  obtain ⟨head, args, hts, hkind, -⟩ := h.cons
  rw [Line.kindOf_text (by decide)] at hkind
  rw [closeFrom_succ, hts]
  simp only [bind, Except.bind, hkind]

theorem closeFrom_closes (h : p.Reads n [Kind.close.text]) (count : Nat) (seen : Option Int) :
    p.closeFrom opener header (count + 1) n 0 seen = .ok ⟨header, seen, n⟩ := by
  obtain ⟨head, args, hts, hkind, -⟩ := h.cons
  rw [Line.kindOf_text (by decide)] at hkind
  rw [closeFrom_succ, hts]
  simp only [bind, Except.bind, hkind]
  rfl

/-- An `OTHERWISE` inside belongs to another block. -/
theorem closeFrom_otherwise_inner (h : p.Reads n [Kind.otherwise.text]) (count depth : Nat)
    (seen : Option Int) :
    p.closeFrom opener header (count + 1) n (depth + 1) seen
      = p.closeFrom opener header count (n + 1) (depth + 1) seen := by
  obtain ⟨head, args, hts, hkind, -⟩ := h.cons
  rw [Line.kindOf_text (by decide)] at hkind
  rw [closeFrom_succ, hts]
  simp only [bind, Except.bind, hkind]

theorem closeFrom_otherwise {head : Token} {args : List Token}
    (h : p.Reads n [Kind.otherwise.text]) (hhead : head.kind = .branch) (count : Nat) :
    p.closeFrom (head :: args) header (count + 1) n 0 none
      = p.closeFrom (head :: args) header count (n + 1) 0 (some n) := by
  obtain ⟨head', args', hts, hkind, -, hargs, -⟩ := h.cons
  rw [Line.kindOf_text (by decide)] at hkind
  cases List.map_eq_nil_iff.1 hargs
  rw [closeFrom_succ, hts]
  simp only [bind, Except.bind, hkind]
  rw [otherwiseFault, if_neg (by simp)]
  simp [hhead]

end Program

/-! ## The lines of a block -/

namespace Structured.Code

variable {p : Program} {opener : List Token} {header : Int} {seen : Option Int}

theorem height_act (a : Action) (rest : Code) : (act a rest).height = rest.height + 1 := rfl

theorem height_assign (x : Name) (e : Phrase) (rest : Code) :
    (assign x e rest).height = rest.height + 1 := rfl

theorem height_branch (e : Phrase) (yes rest : Code) :
    (branch e yes rest).height = yes.height + rest.height + 2 := by
  simp only [height, lines, List.length_cons, List.length_append]
  omega

theorem height_choice (e : Phrase) (yes no rest : Code) :
    (choice e yes no rest).height = yes.height + no.height + rest.height + 3 := by
  simp only [height, lines, List.length_cons, List.length_append]
  omega

theorem height_loop (e : Phrase) (body rest : Code) :
    (loop e body rest).height = body.height + rest.height + 2 := by
  simp only [height, lines, List.length_cons, List.length_append]
  omega

/-- A block between a line and further lines. -/
theorem holds_enclosed {n : Int} {first : List Text} {inner : Code} {rest : List (List Text)} :
    p.Holds n (first :: (inner.lines ++ rest)) ↔
      p.Reads n first ∧ p.Holds (n + 1) inner.lines ∧ p.Holds (n + 1 + inner.height) rest := by
  rw [Program.Holds, Program.holds_append, height]

theorem kindOf_action (a : Action) : Line.kindOf (Kind.action a).text = .action a :=
  Line.kindOf_text (by cases a <;> decide)

theorem opensBlock_branch : (Line.kindOf Kind.branch.text).opensBlock = true := by
  rw [Line.kindOf_text (by decide)]
  rfl

theorem opensBlock_loop : (Line.kindOf Kind.loop.text).opensBlock = true := by
  rw [Line.kindOf_text (by decide)]
  rfl

/-- The lines of a block do not change what the search looks for. -/
theorem closeFrom_lines (code : Code) {n : Int} (h : p.Holds n code.lines) (count depth : Nat) :
    p.closeFrom opener header (code.height + count) n depth seen
      = p.closeFrom opener header count (n + code.height) depth seen := by
  induction code generalizing n count depth with
  | done => simp [height, lines]
  | act a rest ih =>
    obtain ⟨hact, hrest⟩ := h
    rw [height_act, Nat.add_right_comm,
      Program.closeFrom_passes hact (.inr ⟨a, kindOf_action a⟩), ih hrest]
    congr 1
    omega
  | assign x e rest ih =>
    obtain ⟨hassign, hrest⟩ := h
    rw [height_assign, Nat.add_right_comm, Program.closeFrom_passes hassign (.inl x.isIdent),
      ih hrest]
    congr 1
    omega
  | branch e yes rest ihYes ih =>
    obtain ⟨hopen, hyes, hclose, hrest⟩ := holds_enclosed.1 h
    -- one deeper at the opening line, and back at the closing one
    rw [height_branch, show yes.height + rest.height + 2 + count
      = yes.height + (rest.height + count + 1) + 1 from by omega,
      Program.closeFrom_opens hopen opensBlock_branch, ihYes hyes,
      Program.closeFrom_closes_inner hclose, ih hrest]
    congr 1
    omega
  | choice e yes no rest ihYes ihNo ih =>
    obtain ⟨hopen, hyes, h⟩ := holds_enclosed.1 h
    obtain ⟨hother, hno, hclose, hrest⟩ := holds_enclosed.1 h
    -- the `OTHERWISE` is one deeper and so belongs to this branch
    rw [height_choice, show yes.height + no.height + rest.height + 3 + count
      = yes.height + (no.height + (rest.height + count + 1) + 1) + 1 from by omega,
      Program.closeFrom_opens hopen opensBlock_branch, ihYes hyes,
      Program.closeFrom_otherwise_inner hother, ihNo hno,
      Program.closeFrom_closes_inner hclose, ih hrest]
    congr 1
    omega
  | loop e body rest ihBody ih =>
    obtain ⟨hopen, hbody, hclose, hrest⟩ := holds_enclosed.1 h
    rw [height_loop, show body.height + rest.height + 2 + count
      = body.height + (rest.height + count + 1) + 1 from by omega,
      Program.closeFrom_opens hopen opensBlock_loop, ihBody hbody,
      Program.closeFrom_closes_inner hclose, ih hrest]
    congr 1
    omega

end Structured.Code

/-! ## Blocks -/

namespace Program

variable {p : Program} {last n : Int}

/-- The end of a block that is opened on line `n` and has no `OTHERWISE`. -/
theorem block_opening {w : Text} {words : List Text} {inner : Code} (hlast : p.last = .ok last)
    (hopen : p.Reads n (w :: words)) (hinner : p.Holds (n + 1) inner.lines)
    (hclose : p.Reads (n + 1 + inner.height) [Kind.close.text])
    (hn : n + 1 + inner.height < last) : p.block n = .ok ⟨n, none, n + 1 + inner.height⟩ := by
  obtain ⟨opener, args, hts, -⟩ := hopen.cons
  -- the search may go on to the last line, but the block ends before
  have hcount : (last - n - 1).toNat
      = inner.height + ((last - n - 1).toNat - inner.height - 1 + 1) := by omega
  rw [block_eq, hlast, hts]
  simp only [bind, Except.bind]
  rw [hcount, Code.closeFrom_lines inner hinner, closeFrom_closes hclose]

/-- The end and the `OTHERWISE` of a branch that is opened on line `n`. -/
theorem block_choice {words : List Text} {yes no : Code} (hlast : p.last = .ok last)
    (hopen : p.Reads n (Kind.branch.text :: words)) (hyes : p.Holds (n + 1) yes.lines)
    (hother : p.Reads (n + 1 + yes.height) [Kind.otherwise.text])
    (hno : p.Holds (n + 1 + yes.height + 1) no.lines)
    (hclose : p.Reads (n + 1 + yes.height + 1 + no.height) [Kind.close.text])
    (hn : n + 1 + yes.height + 1 + no.height < last) :
    p.block n = .ok ⟨n, some (n + 1 + yes.height), n + 1 + yes.height + 1 + no.height⟩ := by
  obtain ⟨opener, args, hts, hkind, -⟩ := hopen.cons
  rw [Line.kindOf_text (by decide)] at hkind
  have hcount : (last - n - 1).toNat = yes.height
      + (no.height + ((last - n - 1).toNat - yes.height - no.height - 2 + 1) + 1) := by omega
  rw [block_eq, hlast, hts]
  simp only [bind, Except.bind]
  rw [hcount, Code.closeFrom_lines yes hyes, closeFrom_otherwise hother hkind,
    Code.closeFrom_lines no hno, closeFrom_closes hclose]

end Program

/-! ## Whole programs -/

namespace Structured.Code

theorem isWord_keyword {k : Kind} (hk : k ∈ Kind.keywords) : ∀ w ∈ [k.text], Line.IsWord w := by
  intro w hw
  rw [List.mem_singleton.1 hw]
  exact Line.isWord_text hk

theorem isWord_opening {k : Kind} (hk : k ∈ Kind.keywords) (e : Phrase) :
    ∀ w ∈ e.opening k, Line.IsWord w :=
  List.forall_mem_cons.2 ⟨Line.isWord_text hk, e.isWord⟩

/-- The lines of a block are lines of words. -/
theorem isWord_lines (code : Code) : ∀ words ∈ code.lines, ∀ w ∈ words, Line.IsWord w := by
  have hclose : ∀ w ∈ [Kind.close.text], Line.IsWord w := isWord_keyword (by decide)
  induction code with
  | done => simp [lines]
  | act a rest ih =>
    exact List.forall_mem_cons.2 ⟨isWord_keyword (by cases a <;> decide), ih⟩
  | assign x e rest ih =>
    have hname : Line.IsWord x.word := ⟨x.nonempty, by rw [x.isIdent]; decide⟩
    refine List.forall_mem_cons.2 ⟨?_, ih⟩
    exact List.forall_mem_cons.2
      ⟨hname, List.forall_mem_cons.2 ⟨Line.isWord_text (by decide), e.isWord⟩⟩
  | branch e yes rest ihYes ih =>
    simp only [lines, List.forall_mem_cons, List.forall_mem_append]
    exact ⟨isWord_opening (by decide) e, ihYes, List.forall_mem_cons.1 hclose, ih⟩
  | choice e yes no rest ihYes ihNo ih =>
    simp only [lines, List.forall_mem_cons, List.forall_mem_append]
    exact ⟨isWord_opening (by decide) e, ihYes,
      List.forall_mem_cons.1 (isWord_keyword (by decide)), ihNo, List.forall_mem_cons.1 hclose, ih⟩
  | loop e body rest ihBody ih =>
    simp only [lines, List.forall_mem_cons, List.forall_mem_append]
    exact ⟨isWord_opening (by decide) e, ihBody, List.forall_mem_cons.1 hclose, ih⟩

variable (code : Code) (k : PresetNumber)

theorem isWord_program : ∀ words ∈ code.program k, ∀ w ∈ words, Line.IsWord w := by
  have hpreset : Line.IsWord (Kind.preset k).text := Line.isWord_text (by cases k <;> decide)
  refine List.forall_mem_cons.2 ⟨?_, List.forall_mem_append.2 ⟨code.isWord_lines, ?_⟩⟩
  · exact List.forall_mem_cons.2
      ⟨Line.isWord_text (by decide), List.forall_mem_singleton.2 hpreset⟩
  · exact List.forall_mem_singleton.2 (isWord_keyword (by decide))

/-- The lines of the source of a program. -/
theorem ofSource_source :
    Program.ofSource (code.source k) = ⟨(code.program k).map (Text.join [Text.space])⟩ :=
  Program.ofSource_join (List.cons_ne_nil _ _) (code.isWord_program k)

theorem size_source : (Program.ofSource (code.source k)).size = code.height + 2 := by
  rw [ofSource_source, Program.size, List.length_map, program, List.length_cons,
    List.length_append, height]
  rfl

/-- What is read from the source of a program: its first line, its block and its last line. -/
theorem holds_source :
    (Program.ofSource (code.source k)).Reads 1 [Kind.load.text, (Kind.preset k).text]
      ∧ (Program.ofSource (code.source k)).Holds 2 code.lines
      ∧ (Program.ofSource (code.source k)).Reads (2 + code.height) [Kind.close.text] := by
  have h : (Program.ofSource (code.source k)).Holds 1 (code.program k) := by
    refine @Program.holds_of_lines _ [] _ ?_ (code.isWord_program k)
    rw [ofSource_source]
    rfl
  obtain ⟨hload, hcode, hclose, -⟩ := holds_enclosed.1 h
  exact ⟨hload, hcode, hclose⟩

theorem last_source : (Program.ofSource (code.source k)).last = .ok (2 + code.height) := by
  obtain ⟨-, -, hclose⟩ := code.holds_source k
  obtain ⟨t, rest, hts, -⟩ := hclose.cons
  rw [Program.last, size_source, Program.lastUpTo_succ,
    show (((code.height + 1 : Nat) : Int) + 1) = 2 + code.height from by omega, hts]
  rfl

end Structured.Code

end RobotMaze

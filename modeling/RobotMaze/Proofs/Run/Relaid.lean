import RobotMaze.Proofs.Env
import RobotMaze.Proofs.Expr.Scan
import RobotMaze.Proofs.Program.Rows
import RobotMaze.Proofs.Run.Opening

/-!
# Runs of the same rows

Two sources may have the same rows, up to the names in them, and differ in all that stands around
the words: lines without words, comments, indentation, blanks between words, carriage returns.
Their runs do the same on other lines and with other names.

The two runs are compared row by row.  Wherever one of them is, the next row is the same in both
programs, and each of them passes over its own lines without words to get there.

* `Session.Relaid` — two sessions that differ in line numbers and names only;
* `Exec.related_rangeIn_relaid` — ranges between corresponding places do the same;
* `Run.runFresh_reworded`, `Run.Returns.reworded` — and so do runs.
-/

namespace RobotMaze

open Step

variable {texts : Text → Text} {lines : Int → Int → Prop}

/-! ## Journals and sessions -/

/-- Two actions that differ in their lines only. -/
structure Event.Alike (lines : Int → Int → Prop) (e e' : Event) : Prop where
  line : lines e.line e'.line
  action : e'.action = e.action
  rejection : e'.rejection = e.rejection
  maze : e'.maze = e.maze

/-- Two entries of journals that differ in their lines and names only. -/
inductive Entry.Alike (texts : Text → Text) (lines : Int → Int → Prop) : Entry → Entry → Prop where
  | line {n n' : Int} (words : List Text) (hn : lines n n') :
      Alike texts lines (.line n (Text.join [Text.space] words))
        (.line n' (Text.join [Text.space] (words.map texts)))
  | loaded {n n' : Int} (k : PresetNumber) (m : Maze) (hn : lines n n') :
      Alike texts lines (.loaded n k m) (.loaded n' k m)
  | acted {e e' : Event} (he : e.Alike lines e') : Alike texts lines (.acted e) (.acted e')
  | solved {n n' : Int} (hn : lines n n') : Alike texts lines (.solved n) (.solved n')
  | assigned {n n' : Int} (name : Text) (value : Bool) (hn : lines n n') :
      Alike texts lines (.assigned n name value) (.assigned n' (texts name) value)

theorem Journal.events_alike {entries entries' : List Entry}
    (h : List.Forall₂ (Entry.Alike texts lines) entries entries') :
    List.Forall₂ (Event.Alike lines) (events entries) (events entries') := by
  induction h with
  | nil => exact .nil
  | cons he _ ih =>
    cases he with
    | acted he => exact .cons he ih
    | _ => exact ih

namespace Session

/-- Two sessions that differ in line numbers and names only. -/
structure Relaid (texts : Text → Text) (lines : Int → Int → Prop) (s t : Session) : Prop where
  ordered : s.env.Ordered
  env : t.env = s.env.renamed texts
  maze : t.maze = s.maze
  executed : t.executed = s.executed
  warnings : t.warnings = s.warnings
  journal : List.Forall₂ (Entry.Alike texts lines) s.journal.toList t.journal.toList

theorem relaid_empty (texts : Text → Text) (lines : Int → Int → Prop) : Relaid texts lines {} {} :=
  ⟨Env.ordered_empty, rfl, rfl, rfl, rfl, .nil⟩

theorem Relaid.noted {s t : Session} (h : s.Relaid texts lines t) {e e' : Entry}
    (he : e.Alike texts lines e') : (s.noted e).Relaid texts lines (t.noted e') := by
  refine { h with journal := ?_ }
  rw [Session.noted, Session.noted, Array.toList_push, Array.toList_push]
  exact List.rel_append h.journal (.cons he .nil)

theorem Relaid.entered {s t : Session} (h : s.Relaid texts lines t) {n n' : Int}
    {ts ts' : List Token} (hn : lines n n')
    (hts : List.Forall₂ (Token.Alike texts fun _ _ => True) ts ts') :
    (s.entered n (Token.line ts)).Relaid texts lines (t.entered n' (Token.line ts')) := by
  have hcounted : Relaid texts lines { s with line := n, executed := s.executed + 1 }
      { t with line := n', executed := t.executed + 1 } :=
    { h with executed := by rw [h.executed] }
  have hline : (Entry.line n (Token.line ts)).Alike texts lines (.line n' (Token.line ts')) := by
    rw [Token.line, Token.line, Token.literals_alike hts]
    exact .line _ hn
  exact hcounted.noted hline

theorem Relaid.attempted {s t : Session} (h : s.Relaid texts lines t) (hline : lines s.line t.line)
    (m : Maze) (a : Action) : (s.attempted m a).Relaid texts lines (t.attempted m a) := by
  unfold Session.attempted
  cases m.perform a with
  | ok after =>
    have hset : Relaid texts lines { s with maze := some after } { t with maze := some after } :=
      { h with maze := rfl }
    exact hset.noted (.acted ⟨hline, rfl, rfl, rfl⟩)
  | error reason =>
    have hwarned : Relaid texts lines { s with warnings := s.warnings.push ⟨a, reason⟩ }
        { t with warnings := t.warnings.push ⟨a, reason⟩ } :=
      { h with warnings := by rw [h.warnings] }
    exact hwarned.noted (.acted ⟨hline, rfl, rfl, rfl⟩)

theorem Relaid.loaded {s t : Session} (h : s.Relaid texts lines t) {n n' : Int} (hn : lines n n')
    (k : PresetNumber) (m : Maze) : (s.loaded n k m).Relaid texts lines (t.loaded n' k m) := by
  have hset : Relaid texts lines { s with maze := some m } { t with maze := some m } :=
    { h with maze := rfl }
  exact hset.noted (.loaded k m hn)

theorem Relaid.assigned {s t : Session} (h : s.Relaid texts lines t) (hinj : texts.Injective)
    {n n' : Int} (hn : lines n n') (x : Text) (value : Bool) :
    (s.assigned n x value).Relaid texts lines (t.assigned n' (texts x) value) := by
  have hset : Relaid texts lines { s with env := s.env.set x value }
      { t with env := t.env.set (texts x) value } :=
    { h with
      ordered := h.ordered.set x value
      env := by rw [h.env, Env.renamed_set hinj] }
  exact hset.noted (.assigned x value hn)

end Session

/-! ## The single operations -/

/-- A run of `p` and a run of `p'`, where `lines` tells which lines are the same row and `texts`
what a word of `p` is called in `p'`. -/
def Accord.relaid (texts : Text → Text) (lines : Int → Int → Prop) (p p' : Program) : Accord where
  lines := lines
  spots := Program.Cut lines p p'
  columns _ _ := True
  texts := texts
  sessions := Session.Relaid texts lines
  stops e s e' t := e.Alike lines e' ∧ s.Relaid texts lines t

variable {p p' : Program}

theorem Step.related_answers {α β : Type} {values : α → β → Prop} {x : Except Stop α}
    {y : Except Stop β} (h : Program.Answers lines values x y) :
    Related (.relaid texts lines p p') (fun a b => values a b ∧ x = .ok a ∧ y = .ok b)
      (Step.ofExcept x) (Step.ofExcept y) := by
  cases x with
  | ok a =>
    cases y with
    | ok b => exact related_pure ⟨h, rfl, rfl⟩
    | error e' => exact h.elim
  | error e =>
    cases y with
    | ok b => exact h.elim
    | error e' => exact related_throw fun s t hst => ⟨h, hst⟩

theorem Token.exprPart_alike {columns : Int → Int → Prop} {ts ts' : List Token}
    (h : List.Forall₂ (Token.Alike texts columns) ts ts') :
    List.Forall₂ (Token.Alike texts columns) (Token.exprPart ts) (Token.exprPart ts') := by
  cases h with
  | nil => exact .nil
  | cons hhead hargs =>
    rw [Token.exprPart, Token.exprPart, hhead.kind]
    split
    · exact List.forall₂_drop 1 hargs
    · exact hargs

/-- The same words up to names stand for the same expression, or are wrong in the same way. -/
theorem Expr.ofTokens_alike {columns : Int → Int → Prop} (hρ : Line.Rewording texts)
    {ts ts' : List Token} (hwords : ∀ t ∈ ts, Line.IsWord t.literal)
    (h : List.Forall₂ (Token.Alike texts columns) ts ts') {n n' : Int} (hn : lines n n') :
    Program.Answers lines (Expr.Alike texts) ((Expr.ofTokens ts n).mapError Stop.failed)
      ((Expr.ofTokens ts' n').mapError Stop.failed) := by
  have hliterals : ∀ w ∈ Token.literals ts, Line.IsWord w := by
    intro w hw
    obtain ⟨t, ht, rfl⟩ := List.mem_map.1 hw
    exact hwords t ht
  have hreading := Expr.reading_ofText hρ hliterals
  rw [← Token.literals_alike h, ← Token.line, ← Token.line] at hreading
  cases h with
  | nil => exact ⟨rfl, hn⟩
  | cons hhead hargs =>
    dsimp only [Expr.ofTokens]
    revert hreading
    generalize Expr.ofText _ = x
    generalize Expr.ofText _ = y
    intro hreading
    cases x with
    | ok e =>
      cases y with
      | ok e' => exact hreading
      | error problem' => exact hreading.elim
    | error problem =>
      cases y with
      | ok e' => exact hreading.elim
      | error problem' => exact ⟨rfl, hn⟩

namespace Exec

variable {c : Config} {limit : Nat} {n n' : Int}

theorem isLast_relaid (h : p.Relaid texts lines p') (hn : lines n n') :
    ∃ b, (∀ s, isLast (Reader.fresh p) n s = .ok b s) ∧
      ∀ t, isLast (Reader.fresh p') n' t = .ok b t := by
  obtain ⟨head, args, head', args', hts, hts', -⟩ := h.words hn
  obtain ⟨l, l', hl, hl', hlast⟩ := h.last
  have hle := (Program.last_eq_ok hl).le_of_tokens hts
  have hle' := (Program.last_eq_ok hl').le_of_tokens hts'
  have hpos := (Program.bounds_of_tokens hts).1
  have hlt := h.lt_iff hn (hlast.resolve_left (by omega))
  have hsame : (n' == l') = (n == l) := by
    rw [Bool.eq_iff_iff, beq_iff_eq, beq_iff_eq]
    omega
  refine ⟨n == l, isLast_of_ok hl n, ?_⟩
  rw [← hsame]
  exact isLast_of_ok hl' n'

theorem parallel_relaid (hρ : Line.Rewording texts) (h : p.Relaid texts lines p') :
    Parallel (.relaid texts lines p p') p p' (Reader.fresh p) (Reader.fresh p') c c where
  loader := fun _ _ => rfl
  spot := h.cut
  spot_succ := h.cut_succ
  column_zero := trivial
  words := fun hn hts hts' => h.alike hn hts hts'
  blocks := by
    intro n n' b b' hn hb hb'
    have hblock := h.block hn
    rw [hb, hb'] at hblock
    exact hblock
  tokens := by
    intro n n' hn
    obtain ⟨head, args, head', args', hts, hts', -⟩ := h.words hn
    simp only [Reader.fresh, hts, hts']
    exact related_pure ⟨rfl, rfl⟩
  isLast := by
    intro n n' s t hn hst
    obtain ⟨b, hb, hb'⟩ := isLast_relaid h hn
    exact ⟨b, s, t, hb s, hb' t, hst, rfl, rfl⟩
  block := by
    intro n n' head args hn _
    exact (related_answers (h.block hn)).mono fun _ _ hb => hb.2
  expr := by
    intro n n' ts ts' hn hts hts'
    have halike := Token.exprPart_alike (h.alike hn hts hts')
    have hwords : ∀ t ∈ Token.exprPart ts, Line.IsWord t.literal :=
      fun t ht => Program.isWord_of_tokens hts t (Token.exprPart_subset ts ht)
    exact (related_answers (Expr.ofTokens_alike hρ hwords halike hn)).mono fun _ _ he => he.1
  started := by
    intro s t hst
    rw [hst.executed]
  scene := by
    intro s t hst
    refine ⟨fun x => ?_, hst.maze⟩
    rw [hst.env]
    exact Env.get?_renamed hρ.injective _ x
  settle := fun hst _ => { hst with }
  enter := fun hst hn hts hts' => hst.entered hn (h.alike hn hts hts')
  load := fun hst _ hn hts hts' _ => (hst.entered hn (h.alike hn hts hts')).loaded hn _ _
  attempt := fun a hst hline _ => hst.attempted hline _ a
  solve := fun hst hn => hst.noted (.solved hn)
  assign := fun value hst hn _ _ => hst.assigned hρ.injective hn _ value
  fails := fun _ hst hn _ => ⟨⟨Fault.origin_reword _ _, hn⟩, hst⟩
  panics := fun hst _ => ⟨trivial, hst⟩

/-! ## Ranges and programs -/

/-- A range without rows does nothing. -/
theorem rangeIn_of_blank {start stop : Int} {steps : Nat} (hblank : p.Blank start stop)
    (hpos : 0 < steps) (hsteps : stop < start + steps) (s : Session) :
    rangeIn (Reader.fresh p) c limit steps start stop s = .ok .next s := by
  by_cases hlt : start < stop
  · obtain ⟨j, rfl⟩ : ∃ j : Nat, stop = start + j := ⟨(stop - start).toNat, by omega⟩
    obtain ⟨k, rfl⟩ : ∃ k, steps = j + (k + 1) := ⟨steps - j - 1, by omega⟩
    rw [rangeIn_blank hblank (Int.le_refl _), rangeIn, if_neg (Int.lt_irrefl _)]
    rfl
  · obtain ⟨k, rfl⟩ : ∃ k, steps = k + 1 := ⟨steps - 1, by omega⟩
    rw [rangeIn, if_neg hlt]
    rfl

/-- **Ranges between corresponding places do the same.**  Both can count on more steps than there
are lines left, however many lines without words each of them passes. -/
theorem related_rangeIn_relaid (hρ : Line.Rewording texts) (h : p.Relaid texts lines p')
    {steps steps' : Nat} {start start' stop stop' : Int} (hstart : p.Cut lines p' start start')
    (hstop : p.Cut lines p' stop stop') (hsteps : p.size + 1 < start + steps)
    (hsteps' : p'.size + 1 < start' + steps') :
    Related (.relaid texts lines p p') Eq (rangeIn (Reader.fresh p) c limit steps start stop)
      (rangeIn (Reader.fresh p') c limit steps' start' stop') := by
  induction steps using Nat.strongRecOn generalizing steps' start start' stop stop' with
  | ind steps ih =>
    intro s t hst
    have hle := hstart.le
    have hle' := hstart.le'
    have hstople := hstop.le
    have hstople' := hstop.le'
    rcases h.next hstart hstop with ⟨hblank, hblank'⟩ |
      ⟨n, n', hn, hlow, hup, hlow', hup', hblank, hblank'⟩
    · rw [rangeIn_of_blank hblank (by omega) (by omega),
        rangeIn_of_blank hblank' (by omega) (by omega)]
      exact ⟨rfl, hst⟩
    · obtain ⟨j, rfl⟩ : ∃ j : Nat, n = start + j := ⟨(n - start).toNat, by omega⟩
      obtain ⟨j', rfl⟩ : ∃ j' : Nat, n' = start' + j' := ⟨(n' - start').toNat, by omega⟩
      obtain ⟨k, rfl⟩ : ∃ k, steps = j + (k + 1) := ⟨steps - j - 1, by omega⟩
      obtain ⟨k', rfl⟩ : ∃ k', steps' = j' + (k' + 1) := ⟨steps' - j' - 1, by omega⟩
      rw [rangeIn_blank hblank (by omega), rangeIn_blank hblank' (by omega)]
      -- behind the row, fewer steps are enough on both sides
      have hbelow : Below (.relaid texts lines p p') (start + j) (start' + j')
          (rangeIn (Reader.fresh p) c limit k) (rangeIn (Reader.fresh p') c limit k') := by
        intro a a' b b' ha hb hlt hlt'
        exact ih k (by omega) ha hb (by omega) (by omega)
      have hparallel := parallel_relaid (c := c) hρ h
      refine related_rangeIn_succ hup hup' (h.cut_succ hn) hstop hbelow ?_ s t hst
      refine hparallel.related_line hn hbelow ?_
      intro head args head' args' hts hts' hkind
      refine hparallel.related_loop hn hts hbelow ?_
      intro b b' _ _ hbody hexit
      refine related_rounds (hparallel.related_test hn hts hts' (by rw [hkind]; decide)) hbody hexit
        trivial (.equal fun s t hst => ⟨trivial, hst⟩) (fun _ _ => id) ?_
      exact fun i hi => .inr ⟨hi, fun s t hst => ⟨⟨rfl, hn⟩, hst⟩⟩

/-- A program without rows is rejected. -/
theorem program_of_empty (hlast : p.last = .ok 0) (s : Session) :
    program (Reader.fresh p) c limit s = .error (.failed ⟨.emptyProgram, 1, 0⟩) s := by
  have hending : ending (Reader.fresh p) s = .error (.failed ⟨.emptyProgram, 1, 0⟩) s := by
    simp only [ending, Reader.fresh, hlast]
    rfl
  exact bind_of_error hending

/-- Last rows that are the same both close their programs, or neither does. -/
theorem related_ending (h : p.Relaid texts lines p') {l l' : Int} (hlast : p.last = .ok l)
    (hlast' : p'.last = .ok l') (hl : lines l l') :
    Related (.relaid texts lines p p') (fun a a' => a = l ∧ a' = l') (ending (Reader.fresh p))
      (ending (Reader.fresh p')) := by
  obtain ⟨head, args, head', args', hts, hts', halike⟩ := h.words hl
  have hpos := (Program.bounds_of_tokens hts).1
  have hpos' := (Program.bounds_of_tokens hts').1
  have hfails : Related (.relaid texts lines p p') (fun a a' => a = l ∧ a' = l')
      (Step.fail .unclosedProgram l 0) (Step.fail .unclosedProgram l' 0) :=
    related_fail fun s t hst => ⟨⟨rfl, hl⟩, hst⟩
  unfold ending
  simp only [Reader.fresh, hlast, hlast', Step.ofExcept, pure_bind]
  rw [if_neg (by omega), if_neg (by omega), hts, hts']
  obtain ⟨hhead, hargs⟩ := List.forall₂_cons.1 halike
  cases hargs with
  | cons _ _ => exact hfails
  | nil =>
    simp only [pure_bind, hhead.kind]
    split
    · exact related_pure ⟨rfl, rfl⟩
    · exact hfails

/-- **Programs with the same rows do the same.** -/
theorem related_program_relaid (hρ : Line.Rewording texts) (h : p.Relaid texts lines p')
    {l l' : Int} (hlast : p.last = .ok l) (hlast' : p'.last = .ok l') (hl : lines l l')
    (c : Config) (limit : Nat) :
    Related (.relaid texts lines p p') Eq (program (Reader.fresh p) c limit)
      (program (Reader.fresh p') c limit) := by
  refine (related_ending h hlast hlast' hl).bind ?_
  rintro _ _ ⟨rfl, rfl⟩
  have hone : p.Cut lines p' 1 1 := by
    refine ⟨by omega, by omega, by omega, by omega, fun hn => ?_⟩
    obtain ⟨_, _, _, _, hts, hts', -⟩ := h.words hn
    have hpos := (Program.bounds_of_tokens hts).1
    have hpos' := (Program.bounds_of_tokens hts').1
    omega
  refine related_rangeIn_relaid hρ h hone (h.cut_succ hl) ?_ ?_
  · show (p.size : Int) + 1 < 1 + (p.size + 2 : Nat)
    omega
  · show (p'.size : Int) + 1 < 1 + (p'.size + 2 : Nat)
    omega

end Exec

/-! ## Runs -/

namespace Run

variable {c : Config} {src src' : Text}

/-- The summary with its names replaced by their images. -/
def Result.renamed (texts : Text → Text) (r : Result) : Result :=
  { r with env := r.env.renamed texts }

theorem summary_relaid {s t : Session} (h : s.Relaid texts lines t) (halted : Bool) :
    summary halted t = (summary halted s).renamed texts := by
  unfold summary Result.renamed
  rw [h.maze, h.env, h.warnings, h.executed]

/-- Where two programs report what is wrong: on corresponding lines, or on the same line if there
are no rows. -/
structure Reported (p : Program) (lines : Int → Int → Prop) (n n' : Int) : Prop where
  row : p.rows ≠ [] → lines n n'
  line : p.rows = [] → n' = n

/-- Runs of sources with the same rows up to names end in the same way, after the same actions. -/
theorem runFresh_reworded (hρ : Line.Rewording texts)
    (h : (Program.ofSource src).Relaid texts lines (Program.ofSource src')) (limit : Nat) :
    Program.Answers (Reported (Program.ofSource src) lines) Eq
        (runFresh c limit src).ending (runFresh c limit src').ending ∧
      (runFresh c limit src).session.Relaid texts lines (runFresh c limit src').session := by
  obtain ⟨l, l', hlast, hlast', hl⟩ := h.last
  unfold runFresh Outcome.ofStep
  rcases hl with ⟨rfl, rfl⟩ | hl
  · -- a row would stand behind the last line
    have hrows : (Program.ofSource src).rows = [] := by
      rw [List.eq_nil_iff_forall_not_mem]
      rintro ⟨n, ts⟩ hmem
      obtain ⟨hts, hne⟩ := Program.mem_rows.1 hmem
      obtain ⟨head, args, rfl⟩ := List.exists_cons_of_ne_nil hne
      have hle := (Program.last_eq_ok hlast).le_of_tokens hts
      have hpos := (Program.bounds_of_tokens hts).1
      omega
    rw [Exec.program_of_empty hlast, Exec.program_of_empty hlast']
    exact ⟨⟨rfl, fun hne => absurd hrows hne, fun _ => rfl⟩, Session.relaid_empty _ _⟩
  · have hrows : (Program.ofSource src).rows ≠ [] := by
      obtain ⟨head, args, _, _, hts, -⟩ := h.words hl
      exact List.ne_nil_of_mem (Program.mem_rows.2 ⟨hts, List.cons_ne_nil _ _⟩)
    have hmatches := Exec.related_program_relaid hρ h hlast hlast' hl c limit {} {}
      (Session.relaid_empty _ _)
    revert hmatches
    cases Exec.program (Reader.fresh (Program.ofSource src)) c limit {} with
    | ok flow s =>
      cases Exec.program (Reader.fresh (Program.ofSource src')) c limit {} with
      | ok flow' t => exact id
      | error e' t => exact False.elim
    | error e s =>
      cases Exec.program (Reader.fresh (Program.ofSource src')) c limit {} with
      | ok flow' t => exact False.elim
      | error e' t =>
        rintro (hexcused | ⟨halike, hst⟩)
        · exact hexcused.elim
        · exact ⟨halike.mono fun _ _ hn => ⟨fun _ => hn, fun hnil => absurd hnil hrows⟩, hst⟩

/-- What is returned for a source corresponds to what is returned for another layout of it, with
other names. -/
theorem Returns.reworded (hρ : Line.Rewording texts)
    (h : (Program.ofSource src).Relaid texts lines (Program.ofSource src'))
    {o o' : Outcome} (ho : Returns c src o) (ho' : Returns c src' o') :
    Program.Answers (Reported (Program.ofSource src) lines)
        (fun r r' => r.env.Ordered ∧ r' = r.renamed texts) o.result o'.result ∧
      List.Forall₂ (Event.Alike lines) o.events o'.events := by
  obtain ⟨enough, henough⟩ := ho.eventually
  obtain ⟨enough', henough'⟩ := ho'.eventually
  obtain ⟨hending, hsession⟩ := runFresh_reworded (c := c) hρ h (max enough enough')
  rw [← bare_run, ← bare_run, henough _ (Nat.le_max_left _ _), henough' _ (Nat.le_max_right _ _)]
    at hending hsession
  refine ⟨?_, Journal.events_alike hsession.journal⟩
  unfold Outcome.result
  revert hending
  cases o.ending with
  | ok flow =>
    cases o'.ending with
    | ok flow' =>
      rintro rfl
      exact ⟨hsession.ordered, summary_relaid hsession _⟩
    | error e' => exact False.elim
  | error e =>
    cases o'.ending with
    | ok flow' => exact False.elim
    | error e' => exact id

/-- Of sources with the same rows up to names, the run of one ends if the run of the other does. -/
theorem returns_iff_of_relaid (c : Config) (hρ : Line.Rewording texts)
    (h : (Program.ofSource src).Relaid texts lines (Program.ofSource src')) :
    (∃ o, Returns c src o) ↔ ∃ o', Returns c src' o' := by
  have hends : ∀ limit, (runFresh c limit src).ending ≠ .error .unfinished ↔
      (runFresh c limit src').ending ≠ .error .unfinished :=
    fun limit => not_congr (runFresh_reworded hρ h limit).1.unfinished_iff
  constructor
  · rintro ⟨o, ho⟩
    obtain ⟨hended, limit, rfl⟩ := returns_iff.1 ho
    exact ⟨_, returns_iff.2 ⟨(hends limit).1 hended, limit, rfl⟩⟩
  · rintro ⟨o', ho'⟩
    obtain ⟨hended, limit, rfl⟩ := returns_iff.1 ho'
    exact ⟨_, returns_iff.2 ⟨(hends limit).2 hended, limit, rfl⟩⟩

end Run

end RobotMaze

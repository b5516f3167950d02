import RobotMaze.Proofs.Program.Columns
import Mathlib.Data.List.Basic

/-!
# Runs

The tokens of a line are its maximal runs of bytes that are not blank, up to the comment.  They are
also what is left of the line when it is cut by rules, of which always the one that takes most comes
first: a word is never cut short, since some rule takes every run as a whole, and no rule takes
more.

* `Line.IsRun` — a maximal run of bytes that are not blank;
* `Line.Cut.mem_iff` — what a text is cut into are its runs;
* `Line.rules` and `Line.Longest` — the rules, and the longest front of a text that one of them
  takes;
* `Line.scans_iff` — cutting by rules gives the runs with their kinds, and nothing else;
* `Token.ofLine_reads_runs` — a line is read as its runs, or the first one that is no word is
  reported.
-/

namespace RobotMaze

namespace Line

variable {seen : Nat} {text v w rest before behind : Text} {b : UInt8} {p : Piece}
  {ps : List Piece} {ts : List Token}

/-! ## Maximal runs -/

/-- A maximal run of bytes that are not blank in a text that stands `seen` bytes behind the start of
its line. -/
def IsRun (seen : Nat) (text : Text) (p : Piece) : Prop :=
  p.text ≠ [] ∧ (∀ b ∈ p.text, isBlank b = false) ∧
    ∃ before behind, text = before ++ (p.text ++ behind) ∧
      p.column = seen + before.length + 1 ∧ (∀ b ∈ before.getLast?, isBlank b = true) ∧
        ∀ b ∈ behind.head?, isBlank b = true

/-- Where a text starts with a blank, no run does. -/
theorem ne_nil_of_head_blank (hne : w ≠ []) (hw : ∀ b ∈ w, isBlank b = false)
    (hhead : ∀ b ∈ rest.head?, isBlank b = true) (h : rest = before ++ (w ++ behind)) :
    before ≠ [] := by
  rintro rfl
  obtain ⟨b, w, rfl⟩ := List.exists_cons_of_ne_nil hne
  have hblank : isBlank b = true := hhead b (by rw [h]; rfl)
  rw [hw b List.mem_cons_self] at hblank
  cases hblank

theorem isRun_blank (hb : isBlank b = true) :
    IsRun seen (b :: rest) p ↔ IsRun (seen + 1) rest p := by
  have hlast : ∀ before : Text, (∀ c ∈ (b :: before).getLast?, isBlank c = true) ↔
      ∀ c ∈ before.getLast?, isBlank c = true := by
    intro before
    cases before with
    | nil => simp [hb]
    | cons c before => rw [List.getLast?_cons_cons]
  constructor
  · rintro ⟨hne, hw, before, behind, htext, hcolumn, hbefore, hbehind⟩
    have hcons : before ≠ [] := ne_nil_of_head_blank hne hw (by simp [hb]) htext
    obtain ⟨c, before, rfl⟩ := List.exists_cons_of_ne_nil hcons
    rw [List.cons_append, List.cons.injEq] at htext
    obtain ⟨rfl, rfl⟩ := htext
    refine ⟨hne, hw, before, behind, rfl, ?_, (hlast before).1 hbefore, hbehind⟩
    rw [hcolumn, List.length_cons]
    omega
  · rintro ⟨hne, hw, before, behind, rfl, hcolumn, hbefore, hbehind⟩
    refine ⟨hne, hw, b :: before, behind, rfl, ?_, (hlast before).2 hbefore, hbehind⟩
    rw [hcolumn, List.length_cons]
    omega

theorem isRun_word (hne : w ≠ []) (hw : ∀ b ∈ w, isBlank b = false)
    (hrest : ∀ b ∈ rest.head?, isBlank b = true) :
    IsRun seen (w ++ rest) p ↔ p = ⟨w, seen + 1⟩ ∨ IsRun (seen + w.length) rest p := by
  constructor
  · rintro ⟨hne', hw', before, behind, htext, hcolumn, hbefore, hbehind⟩
    rcases List.append_eq_append_iff.1 htext with ⟨a, rfl, htail⟩ | ⟨a, rfl, htail⟩
    · -- the run stands behind the word, and there is a blank in between
      have ha : a ≠ [] := ne_nil_of_head_blank hne' hw' hrest htail
      refine .inr ⟨hne', hw', a, behind, htail, ?_, ?_, hbehind⟩
      · rw [hcolumn, List.length_append]
        omega
      · rwa [List.getLast?_append_of_ne_nil _ ha] at hbefore
    · -- a run that starts in the word starts with it
      have hnil : before = [] := by
        by_contra hcons
        have hlast := List.getLast?_eq_some_getLast hcons
        have hblank := hbefore _ hlast
        rw [hw _ (List.mem_append_left a (List.getLast_mem hcons))] at hblank
        cases hblank
      subst hnil
      rw [List.nil_append] at hw hne
      have hfront : ∀ v behind : Text, (∀ b ∈ v, isBlank b = false) →
          (∀ b ∈ behind.head?, isBlank b = true) →
          (v ++ behind).takeWhile (fun b => !isBlank b) = v := fun v behind hv hblank =>
        Text.takeWhile_run (fun b hb => by rw [hv b hb]; rfl) fun b hb => by rw [hblank b hb]; rfl
      have hsame : p.text = a := by
        rw [← hfront _ _ hw' hbehind, htail, hfront _ _ hw hrest]
      refine .inl ?_
      rw [List.nil_append, ← hsame]
      cases p
      simpa using hcolumn
  · rintro (rfl | ⟨hne', hw', before, behind, rfl, hcolumn, hbefore, hbehind⟩)
    · exact ⟨hne, hw, [], rest, rfl, by simp, by simp, hrest⟩
    · have hcons := ne_nil_of_head_blank hne' hw' hrest rfl
      refine ⟨hne', hw', w ++ before, behind, (List.append_assoc w before _).symm, ?_, ?_, hbehind⟩
      · rw [hcolumn, List.length_append]
        omega
      · rwa [List.getLast?_append_of_ne_nil _ hcons]

/-- **A text is cut into its runs.** -/
theorem Cut.mem_iff (h : Cut seen text ps) : p ∈ ps ↔ IsRun seen text p := by
  induction h with
  | done seen =>
    constructor
    · intro hp
      cases hp
    · rintro ⟨hne, -, before, behind, htext, -⟩
      have hnil := List.append_eq_nil_iff.1 htext.symm
      exact absurd (List.append_eq_nil_iff.1 hnil.2).1 hne
  | blank hb _ ih => rw [isRun_blank hb, ih]
  | word hne hw hend _ ih => rw [isRun_word hne hw hend, List.mem_cons, ih]

theorem IsRun.lt_column (h : IsRun seen text p) : seen < p.column := by
  obtain ⟨-, -, before, behind, -, hcolumn, -⟩ := h
  omega

/-- Runs come in the order in which they stand. -/
theorem Cut.pairwise (h : Cut seen text ps) : ps.Pairwise fun p q => p.column < q.column := by
  induction h with
  | done seen => exact .nil
  | blank _ _ ih => exact ih
  | word hne _ _ hrest ih =>
    refine List.pairwise_cons.2 ⟨fun q hq => ?_, ih⟩
    have hlt := (hrest.mem_iff.1 hq).lt_column
    have hpos := List.length_pos_iff.2 hne
    show _ + 1 < q.column
    omega

/-! ## Rules -/

/-- What the bytes of a line are cut by. -/
inductive Rule where
  /-- Blanks, which are passed over. -/
  | blanks
  | keyword (k : Kind)
  | name
  /-- Whatever is not blank. -/
  | other
  deriving DecidableEq, Repr

/-- Whether a rule takes a text. -/
def Rule.takes : Rule → Text → Bool
  | blanks, w => w.all isBlank
  | keyword k, w => k.text == w
  | name, w => w.all Text.isAsciiLetter
  | other, w => w.all fun b => !isBlank b

/-- The kind of the words that a rule gives. -/
def Rule.kind? : Rule → Option Kind
  | blanks => none
  | keyword k => some k
  | name => some .ident
  | other => some .illegal

/-- The rules in their order. -/
def rules : List Rule := .blanks :: (Kind.keywords.map .keyword ++ [.name, .other])

/-- The first rule that takes a text. -/
def ruleOf (w : Text) : Option Rule := rules.find? fun r => r.takes w

theorem ruleOf_of_blank (h : ∀ b ∈ w, isBlank b = true) : ruleOf w = some .blanks := by
  have hall : Rule.blanks.takes w = true := List.all_eq_true.2 h
  rw [ruleOf, rules, List.find?_cons, hall]

/-- A run goes to the rule of its kind. -/
theorem ruleOf_of_run (hne : w ≠ []) (h : ∀ b ∈ w, isBlank b = false) :
    ∃ rule, ruleOf w = some rule ∧ rule.kind? = some (kindOf w) := by
  have hblanks : Rule.blanks.takes w = false := by
    obtain ⟨b, w, rfl⟩ := List.exists_cons_of_ne_nil hne
    simp [Rule.takes, h b List.mem_cons_self]
  have hother : Rule.other.takes w = true := by simpa [Rule.takes] using h
  have hkeyword : (Kind.keywords.map Rule.keyword).find? (fun r => r.takes w)
      = (Kind.ofWord? w).map .keyword := List.find?_map ..
  rw [ruleOf, rules, List.find?_cons, hblanks, List.find?_append, hkeyword]
  unfold kindOf
  cases Kind.ofWord? w with
  | some k => exact ⟨.keyword k, rfl, rfl⟩
  | none =>
    cases hname : w.all Text.isAsciiLetter with
    | true =>
      refine ⟨.name, ?_, rfl⟩
      have htakes : Rule.name.takes w = true := hname
      simp [htakes]
    | false =>
      refine ⟨.other, ?_, rfl⟩
      have htakes : Rule.name.takes w = false := hname
      simp [htakes, hother]

/-- No rule takes blanks together with other bytes. -/
theorem alike_of_ruleOf (h : (ruleOf w).isSome = true) :
    ∃ c, ∀ b ∈ w, isBlank b = c := by
  obtain ⟨r, hr⟩ := Option.isSome_iff_exists.1 h
  have htakes : r.takes w = true := by simpa using List.find?_some hr
  have hmem : r ∈ rules := List.mem_of_find?_eq_some hr
  cases r with
  | blanks => exact ⟨true, List.all_eq_true.1 htakes⟩
  | keyword k =>
    have hk : k ∈ Kind.keywords := by simpa [rules] using hmem
    have htext : k.text = w := by simpa [Rule.takes] using htakes
    refine ⟨false, fun b hb => ?_⟩
    rw [← htext] at hb
    exact (isInner_of_mem_keyword hk hb).1
  | name =>
    exact ⟨false, fun b hb => (isInner_of_isAsciiLetter (List.all_eq_true.1 htakes b hb)).1⟩
  | other => exact ⟨false, by simpa [Rule.takes] using htakes⟩

/-- The longest front of a text that some rule takes, and the rest. -/
structure Longest (text w rest : Text) : Prop where
  eq_append : text = w ++ rest
  ne_nil : w ≠ []
  taken : (ruleOf w).isSome = true
  longest : ∀ v behind, text = v ++ behind → (ruleOf v).isSome = true → v.length ≤ w.length

/-- Blanks up to the next byte that is not blank, or other bytes up to the next blank, are the
longest front. -/
theorem longest_of_alike {c : Bool} (hne : w ≠ []) (hw : ∀ b ∈ w, isBlank b = c)
    (hrest : ∀ b ∈ rest.head?, isBlank b = !c) (htaken : (ruleOf w).isSome = true) :
    Longest (w ++ rest) w rest := by
  refine ⟨rfl, hne, htaken, fun v behind htext hv => ?_⟩
  rcases List.append_eq_append_iff.1 htext with ⟨a, rfl, hrest'⟩ | ⟨a, rfl, -⟩
  · cases a with
    | nil => simp
    | cons d a =>
      -- such a front has a byte of the word and the byte behind it
      exfalso
      obtain ⟨c', hc'⟩ := alike_of_ruleOf hv
      obtain ⟨b, w, rfl⟩ := List.exists_cons_of_ne_nil hne
      have hb := hc' b (by simp)
      rw [hw b List.mem_cons_self] at hb
      have hd := hc' d (by simp)
      rw [hrest d (by rw [hrest']; rfl), ← hb] at hd
      cases c <;> cases hd
  · simp

theorem Longest.unique {rest' : Text} (h : Longest text w rest) (h' : Longest text v rest') :
    w = v ∧ rest = rest' := by
  have hle := h'.longest w rest h.eq_append h.taken
  have hge := h.longest v rest' h'.eq_append h'.taken
  exact List.append_inj (h.eq_append.symm.trans h'.eq_append) (by omega)

/-- A text that stands `seen` bytes behind the start of its line is cut by the rules into tokens:
each cut takes the longest front that it can, and the first rule that takes it tells the kind. -/
inductive Scans : (seen : Nat) → Text → List Token → Prop where
  | done (seen : Nat) : Scans seen [] []
  | skip {seen : Nat} {text w rest : Text} {ts : List Token} (hcut : Longest text w rest)
      (hrule : (ruleOf w).bind Rule.kind? = none) (hrest : Scans (seen + w.length) rest ts) :
      Scans seen text ts
  | take {seen : Nat} {text w rest : Text} {ts : List Token} {kind : Kind}
      (hcut : Longest text w rest) (hrule : (ruleOf w).bind Rule.kind? = some kind)
      (hrest : Scans (seen + w.length) rest ts) : Scans seen text (⟨kind, w, seen + 1⟩ :: ts)

/-- There is one way to cut a text by the rules. -/
theorem Scans.unique {ts' : List Token} (h : Scans seen text ts) (h' : Scans seen text ts') :
    ts = ts' := by
  have hnil : ∀ {w rest : Text}, ¬ Longest [] w rest :=
    fun h => h.ne_nil (List.append_eq_nil_iff.1 h.eq_append.symm).1
  induction h generalizing ts' with
  | done seen =>
    cases h' with
    | done => rfl
    | skip hcut _ _ => exact absurd hcut hnil
    | take hcut _ _ => exact absurd hcut hnil
  | skip hcut hrule _ ih =>
    cases h' with
    | done => exact absurd hcut hnil
    | skip hcut' _ hrest' =>
      obtain ⟨rfl, rfl⟩ := hcut.unique hcut'
      exact ih hrest'
    | take hcut' hrule' _ =>
      obtain ⟨rfl, rfl⟩ := hcut.unique hcut'
      cases hrule.symm.trans hrule'
  | take hcut hrule _ ih =>
    cases h' with
    | done => exact absurd hcut hnil
    | skip hcut' hrule' _ =>
      obtain ⟨rfl, rfl⟩ := hcut.unique hcut'
      cases hrule.symm.trans hrule'
    | take hcut' hrule' hrest' =>
      obtain ⟨rfl, rfl⟩ := hcut.unique hcut'
      obtain rfl := Option.some.inj (hrule.symm.trans hrule')
      rw [ih hrest']

/-- A run at the front of a text is cut off. -/
theorem Scans.word (hne : w ≠ []) (hw : ∀ b ∈ w, isBlank b = false)
    (hend : ∀ b ∈ rest.head?, isBlank b = true) (hrest : Scans (seen + w.length) rest ts) :
    Scans seen (w ++ rest) (wordToken 0 ⟨w, seen + 1⟩ :: ts) := by
  obtain ⟨rule, hrule, hkind⟩ := ruleOf_of_run hne hw
  exact .take (longest_of_alike hne hw (by simpa using hend) (by rw [hrule]; rfl))
    (by rw [hrule]; exact hkind) hrest

/-- Blanks at the front of a text are passed over. -/
theorem Scans.blanks (hne : w ≠ []) (hw : ∀ b ∈ w, isBlank b = true)
    (hend : ∀ b ∈ rest.head?, isBlank b = false) (hrest : Scans (seen + w.length) rest ts) :
    Scans seen (w ++ rest) ts := by
  have hrule := ruleOf_of_blank hw
  exact .skip (longest_of_alike hne hw (by simpa using hend) (by rw [hrule]; rfl))
    (by rw [hrule]; rfl) hrest

theorem Cut.scans {start : Nat} (h : Cut start text ps) (seen : Nat) (front : Text)
    (hfront : ∀ b ∈ front, isBlank b = true) (hstart : start = seen + front.length) :
    Scans seen (front ++ text) (ps.map (wordToken 0)) := by
  -- `front` collects the blanks, which the rules take together
  induction h generalizing seen front with
  | done start =>
    rcases eq_or_ne front [] with rfl | hne
    · exact .done seen
    · exact .blanks hne hfront (by simp) (.done _)
  | @blank start b rest ps hb _ ih =>
    have hblanks : ∀ c ∈ front ++ [b], isBlank c = true := by
      intro c hc
      rcases List.mem_append.1 hc with hc | hc
      · exact hfront c hc
      · rw [List.mem_singleton.1 hc]
        exact hb
    have hlength : start + 1 = seen + (front ++ [b]).length := by
      rw [List.length_append, List.length_singleton]
      omega
    have hmore := ih seen (front ++ [b]) hblanks hlength
    rwa [List.append_assoc, List.singleton_append] at hmore
  | @word start w rest ps hne hw hend _ ih =>
    have hword : Scans start (w ++ rest) (wordToken 0 ⟨w, start + 1⟩ :: ps.map (wordToken 0)) :=
      .word hne hw hend (ih _ [] (by simp) rfl)
    rcases eq_or_ne front [] with rfl | hcons
    · obtain rfl : start = seen := by simpa using hstart
      exact hword
    · subst hstart
      refine .blanks hcons hfront ?_ hword
      intro b hb
      obtain ⟨c, w, rfl⟩ := List.exists_cons_of_ne_nil hne
      cases hb
      exact hw _ List.mem_cons_self

/-- **Cutting by the rules gives the runs of a text with their kinds.** -/
theorem scans_iff (h : Cut seen text ps) : Scans seen text ts ↔ ts = ps.map (wordToken 0) := by
  have hscans : Scans seen text (ps.map (wordToken 0)) := h.scans seen [] (by simp) rfl
  constructor
  · intro hts
    exact hts.unique hscans
  · rintro rfl
    exact hscans

/-! ## Lines -/

/-- The part of a line before its first comment mark. -/
def IsBody (line body : Text) : Prop :=
  commentMark ∉ body ∧ (line = body ∨ ∃ comment, line = body ++ commentMark :: comment)

theorem stripComment_of_isBody {line body : Text} (h : IsBody line body) :
    stripComment line = body := by
  obtain ⟨hmark, hline⟩ := h
  have hbody : ∀ b ∈ body, (b != commentMark) = true := by
    intro b hb
    rw [bne_iff_ne]
    rintro rfl
    exact hmark hb
  unfold stripComment
  rcases hline with rfl | ⟨comment, rfl⟩
  · exact List.takeWhile_eq_self_iff.2 hbody
  · rw [List.takeWhile_append_of_pos hbody]
    simp

/-- A piece that stands `k` bytes further right. -/
def Piece.moved (k : Nat) (p : Piece) : Piece := ⟨p.text, p.column + k⟩

theorem wordToken_moved (k : Nat) (p : Piece) : wordToken 0 (p.moved k) = wordToken k p := by
  simp [wordToken, Piece.moved]

theorem Cut.moved (h : Cut seen text ps) (k : Nat) :
    Cut (seen + k) text (ps.map (Piece.moved k)) := by
  induction h with
  | done seen => exact .done _
  | @blank seen b rest ps hb _ ih =>
    refine .blank hb ?_
    rwa [Nat.add_right_comm]
  | @word seen w rest ps hne hw hend _ ih =>
    rw [Nat.add_right_comm] at ih
    have hcut := Cut.word hne hw hend ih
    rwa [Nat.add_right_comm] at hcut

theorem Cut.behind_blanks {front : Text} (h : Cut (seen + front.length) text ps)
    (hfront : ∀ b ∈ front, isBlank b = true) : Cut seen (front ++ text) ps := by
  induction front generalizing seen with
  | nil => exact h
  | cons b front ih =>
    refine .blank (hfront b List.mem_cons_self) (ih ?_ fun c hc => hfront c (by simp [hc]))
    rwa [List.length_cons, Nat.add_comm front.length, ← Nat.add_assoc] at h

/-- The pieces of a line are what it is cut into, counted from its start. -/
theorem cut_words {line : Text} (hline : Text.lineFeed ∉ line) :
    Cut 0 (stripComment line) ((words line).map (Piece.moved (lead line))) := by
  have hfeed : Text.lineFeed ∉ (stripComment line).dropWhile isBlank := fun hmem =>
    hline ((List.takeWhile_sublist _).subset ((List.dropWhile_sublist _).subset hmem))
  have hcut : Cut 0 ((stripComment line).takeWhile isBlank ++ (stripComment line).dropWhile isBlank)
      ((words line).map (Piece.moved (lead line))) :=
    ((cut_pieces hfeed 0).moved (lead line)).behind_blanks fun b hb => List.mem_takeWhile_imp hb
  rwa [List.takeWhile_append_dropWhile] at hcut

/-- A keyword, or nothing but letters. -/
def IsLegal (w : Text) : Prop :=
  (∃ k ∈ Kind.keywords, w = k.text) ∨ ∀ b ∈ w, Text.isAsciiLetter b = true

theorem isLegal_iff : IsLegal w ↔ kindOf w ≠ .illegal := by
  constructor
  · rintro (⟨k, hk, rfl⟩ | hletters)
    · exact (isWord_text hk).2
    · intro hkind
      have hall : w.all Text.isAsciiLetter = true := List.all_eq_true.2 hletters
      unfold kindOf at hkind
      split at hkind
      · next k hk =>
        rw [hkind] at hk
        exact absurd (List.mem_of_find?_eq_some hk) (by decide)
      · rw [if_pos hall] at hkind
        cases hkind
  · intro h
    rcases keyword_or_name h with hkeyword | ⟨-, -, hletters⟩
    · exact .inl hkeyword
    · exact .inr hletters

theorem origin_faultOf (w : Text) : (faultOf w).origin = .source := by
  unfold faultOf
  split <;> rfl

theorem kindOf_of_isLegal (h : IsLegal w) : kindOf w = (Kind.ofWord? w).getD .ident := by
  have hkind := isLegal_iff.1 h
  unfold kindOf at hkind ⊢
  cases hword : Kind.ofWord? w with
  | some k => rfl
  | none =>
    rw [hword] at hkind
    by_cases hall : w.all Text.isAsciiLetter = true
    · exact if_pos hall
    · exact absurd (if_neg hall) hkind

end Line

namespace Token

open Line

/-- What was read is read again from its words alone. -/
theorem ofLine_line {line : Text} {number : Int} {ts : List Token}
    (h : ofLine line number = .ok ts) (number' : Int) :
    ∃ ts', ofLine (Token.line ts) number' = .ok ts' ∧ ts'.map kind = ts.map kind ∧
      literals ts' = literals ts := by
  obtain ⟨hlegal, hts⟩ := ofLine_eq_ok h
  have hwords : ∀ w ∈ literals ts, IsWord w := by
    intro w hw
    obtain ⟨t, ht, rfl⟩ := List.mem_map.1 hw
    rw [hts] at ht
    obtain ⟨p, hp, rfl⟩ := List.mem_map.1 ht
    exact ⟨text_ne_nil_of_mem_pieces hp, hlegal p hp⟩
  obtain ⟨ts', hread, hliterals, hkinds⟩ := ofLine_join hwords number'
  refine ⟨ts', hread, ?_, hliterals⟩
  -- on both sides the kinds are those of the words
  have hself : ∀ t ∈ ts, t.kind = kindOf t.literal := by
    intro t ht
    rw [hts] at ht
    obtain ⟨p, -, rfl⟩ := List.mem_map.1 ht
    rfl
  have hmap : ∀ us : List Token, (∀ t ∈ us, t.kind = kindOf t.literal) →
      us.map kind = (literals us).map kindOf := by
    intro us hus
    rw [literals, List.map_map]
    exact List.map_congr_left hus
  rw [hmap ts' hkinds, hmap ts hself, hliterals]

/-- **A line is read as its runs.**  The runs of bytes of a line that are not blank, up to its first
comment mark, are just what the rules cut it into, each with the kind that they tell.  The line is
read if all runs are keywords or made of letters: there is one token for each run, in order, of the
kind of the keyword or else a name, with the bytes of the run and the column of its first byte; and
the words alone, with single spaces between them, are read as the same words again.  Otherwise the
source is at fault, on this line, in the column of the first run that is no such word. -/
theorem ofLine_reads_runs {line body : Text} (hline : Text.lineFeed ∉ line)
    (hbody : IsBody line body) (number : Int) :
    ∃ runs : List Piece, runs.Pairwise (fun p q => p.column < q.column) ∧
      (∀ p, p ∈ runs ↔ IsRun 0 body p) ∧
      (∀ ts, Scans 0 body ts ↔ ts = runs.map (wordToken 0)) ∧
      ((∃ ts, ofLine line number = .ok ts) ↔ ∀ p ∈ runs, IsLegal p.text) ∧
      (∀ ts, ofLine line number = .ok ts →
        ts = runs.map (fun p => ⟨(Kind.ofWord? p.text).getD .ident, p.text, p.column⟩) ∧
        ∀ number', ∃ ts', ofLine (Token.line ts) number' = .ok ts' ∧
          ts'.map kind = ts.map kind ∧ literals ts' = literals ts) ∧
      ∀ err, ofLine line number = .error err →
        err.fault.origin = .source ∧ err.line = number ∧
        ∃ before p behind, runs = before ++ p :: behind ∧ (∀ q ∈ before, IsLegal q.text) ∧
          ¬ IsLegal p.text ∧ err.column = p.column := by
  have hcut := cut_words hline
  rw [stripComment_of_isBody hbody] at hcut
  have hlegal : (∀ p ∈ (words line).map (Piece.moved (lead line)), IsLegal p.text) ↔
      ∀ p ∈ words line, kindOf p.text ≠ .illegal := by
    simp only [List.forall_mem_map, isLegal_iff]
    rfl
  refine ⟨_, hcut.pairwise, fun p => hcut.mem_iff, fun ts => scans_iff hcut, ?_, ?_, ?_⟩
  · rw [hlegal]
    constructor
    · rintro ⟨ts, hts⟩
      exact (ofLine_eq_ok hts).1
    · intro hwords
      exact ⟨_, mapM_tokenOf hwords number (lead line)⟩
  · intro ts hts
    refine ⟨?_, ofLine_line hts⟩
    obtain ⟨hwords, rfl⟩ := ofLine_eq_ok hts
    rw [List.map_map]
    refine List.map_congr_left fun p hp => ?_
    have hkind := kindOf_of_isLegal (isLegal_iff.2 (hwords p hp))
    rw [← wordToken_moved, Function.comp_apply, wordToken, Piece.moved, hkind]
    simp
  · intro err herr
    obtain ⟨before, p, behind, hsplit, hbefore, hp, rfl⟩ := ofLine_eq_error herr
    refine ⟨origin_faultOf p.text, rfl, before.map (Piece.moved (lead line)),
      p.moved (lead line), behind.map (Piece.moved (lead line)), ?_, ?_, ?_, ?_⟩
    · rw [hsplit, List.map_append, List.map_cons]
    · intro q hq
      obtain ⟨r, hr, rfl⟩ := List.mem_map.1 hq
      exact isLegal_iff.2 (hbefore r hr)
    · intro hlegal
      exact isLegal_iff.1 hlegal hp
    · simp [Piece.moved]

/-- Words with blanks of several sorts around them, a word that is none, and a comment. -/
def untidy : Text := utf8 " \tIF\x0cnot2day\x0b ON_KEY @ # MOVE_FORWARD"

/-- On the untidy line the run in column 6 is the first that is no word. -/
theorem untidy_reads_runs :
    ofLine untidy 3 = .error ⟨faultOf "not2day", 3, 6⟩ ∧
      ∃ runs : List Piece, (∀ p, p ∈ runs ↔ IsRun 0 (utf8 " \tIF\x0cnot2day\x0b ON_KEY ") p) ∧
        ∃ before p behind, runs = before ++ p :: behind ∧ (∀ q ∈ before, IsLegal q.text) ∧
          ¬ IsLegal p.text ∧ (6 : Int) = p.column := by
  have hbody : IsBody untidy (utf8 " \tIF\x0cnot2day\x0b ON_KEY ") :=
    ⟨by decide +kernel, .inr ⟨utf8 " # MOVE_FORWARD", by decide +kernel⟩⟩
  have herror : ofLine untidy 3 = .error ⟨faultOf "not2day", 3, 6⟩ := by decide +kernel
  obtain ⟨runs, -, hruns, -, -, -, hfault⟩ := ofLine_reads_runs (by decide +kernel) hbody 3
  exact ⟨herror, runs, hruns, (hfault _ herror).2.2⟩

end Token

end RobotMaze

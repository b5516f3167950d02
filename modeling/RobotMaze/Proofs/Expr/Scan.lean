import RobotMaze.Proofs.Program.Words
import RobotMaze.Proofs.Run.Parallel

/-!
# Expressions made of words

An expression is read from the words of its line, which are put together with single spaces and
taken apart again by other rules: keywords are tried before names, and a boundary has to stand
behind them.  The same words come out, whatever letters the names are made of.

* `Lexeme.scan_join` — joined words are taken apart into the words;
* `Expr.reading_ofText` — with other names the same expression is read, or none.
-/

namespace RobotMaze

namespace Lexeme

variable {w rest : Text} {k : Kind}

/-! ## The front of a text -/

theorem mem_keywords_of_mem_longestFirst (h : k ∈ longestFirst) : k ∈ Kind.keywords := by
  revert h k
  decide

/-- What stands behind a space does not matter for the keywords before it. -/
theorem startsWith_append (hk : k ∈ Kind.keywords) (w : Text)
    (hrest : ∀ b ∈ rest.head?, b = Text.space) : startsWith (w ++ rest) k = startsWith w k := by
  unfold startsWith
  rcases Nat.lt_or_ge w.length k.text.length with hlt | hle
  · have hshort : k.text.isPrefixOf w = false := by
      rw [Bool.eq_false_iff]
      intro hstart
      have hlength := (List.isPrefixOf_iff_prefix.1 hstart).length_le
      omega
    -- the keyword would run on over the space
    have hlong : k.text.isPrefixOf (w ++ rest) = false := by
      rw [Bool.eq_false_iff]
      intro hstart
      obtain ⟨more, hmore⟩ := List.prefix_of_prefix_length_le (List.prefix_append w rest)
        (List.isPrefixOf_iff_prefix.1 hstart) hlt.le
      rw [← hmore, List.isPrefixOf_iff_prefix, List.prefix_append_right_inj] at hstart
      obtain ⟨b, more, rfl⟩ := List.exists_cons_of_ne_nil (l := more) (by
        rintro rfl
        rw [← hmore, List.append_nil] at hlt
        exact Nat.lt_irrefl _ hlt)
      obtain ⟨behind, rfl⟩ := hstart
      obtain rfl : b = Text.space := hrest b rfl
      have hinner := Line.isInner_of_mem_keyword hk (b := Text.space) (by simp [← hmore])
      exact absurd hinner.1 (by decide)
    rw [hshort, hlong, Bool.false_and, Bool.false_and]
  · have hstart : k.text.isPrefixOf (w ++ rest) = k.text.isPrefixOf w := by
      rw [Bool.eq_iff_iff, List.isPrefixOf_iff_prefix, List.isPrefixOf_iff_prefix]
      exact ⟨fun h => List.prefix_of_prefix_length_le h (List.prefix_append w rest) hle,
        fun h => h.trans (List.prefix_append w rest)⟩
    have hboundary : atBoundary (w.drop k.text.length ++ rest)
        = atBoundary (w.drop k.text.length) := by
      cases w.drop k.text.length with
      | cons b more => rfl
      | nil =>
        cases rest with
        | nil => rfl
        | cons b more =>
          rw [hrest b rfl]
          rfl
    rw [hstart, List.drop_append_of_le_length hle, hboundary]

theorem find?_startsWith_append (w : Text) (hrest : ∀ b ∈ rest.head?, b = Text.space) :
    longestFirst.find? (startsWith (w ++ rest)) = longestFirst.find? (startsWith w) := by
  have hfind : ∀ ks : List Kind, (∀ k ∈ ks, k ∈ Kind.keywords) →
      ks.find? (startsWith (w ++ rest)) = ks.find? (startsWith w) := by
    intro ks hks
    induction ks with
    | nil => rfl
    | cons k ks ih =>
      rw [List.find?_cons, List.find?_cons, startsWith_append (hks k List.mem_cons_self) w hrest,
        ih fun k' hk' => hks k' (List.mem_cons_of_mem k hk')]
  exact hfind longestFirst fun _ => mem_keywords_of_mem_longestFirst

/-- A keyword is found before all keywords that it starts with. -/
theorem find?_startsWith_keyword (hk : k ∈ Kind.keywords) :
    longestFirst.find? (startsWith k.text) = some k := by
  revert hk k
  decide

/-- A name is no keyword, and the letters behind a keyword that it starts with are no boundary. -/
theorem find?_startsWith_name (hword : Kind.ofWord? w = none)
    (hletters : ∀ b ∈ w, Text.isAsciiLetter b = true) :
    longestFirst.find? (startsWith w) = none := by
  rw [List.find?_eq_none]
  intro k hk hstarts
  rw [startsWith, Bool.and_eq_true, Bool.or_eq_true] at hstarts
  obtain ⟨hstart, hboundary⟩ := hstarts
  obtain ⟨more, rfl⟩ := List.isPrefixOf_iff_prefix.1 hstart
  rcases hboundary with hassign | hboundary
  · obtain rfl := beq_iff_eq.1 hassign
    have hcolon := hletters 58 (List.mem_append_left _ (by decide))
    cases hcolon
  · rw [List.drop_left] at hboundary
    cases more with
    | nil =>
      rw [List.append_nil, Kind.ofWord?_text (mem_keywords_of_mem_longestFirst hk)] at hword
      cases hword
    | cons b more =>
      have hb := hletters b (List.mem_append_right _ List.mem_cons_self)
      simp [atBoundary, isWordByte, hb] at hboundary

/-- The class of a word. -/
def sortOf (w : Text) : LexemeSort := if Line.kindOf w = .ident then .name else .keyword

/-- A word with nothing or a space behind it stands at the front as a whole. -/
theorem front_word (hw : Line.IsWord w) (hrest : ∀ b ∈ rest.head?, b = Text.space) :
    front (w ++ rest) = .word (sortOf w) w.length := by
  unfold front sortOf
  rw [find?_startsWith_append w hrest]
  rcases Line.keyword_or_name hw.2 with ⟨k, hk, rfl⟩ | ⟨hword, hkind, hletters⟩
  · rw [find?_startsWith_keyword hk, Line.kindOf_text hk, if_neg]
    rintro rfl
    exact absurd hk (by decide)
  · rw [find?_startsWith_name hword hletters, if_pos hkind]
    have htake : (w ++ rest).takeWhile Text.isAsciiLetter = w := by
      apply Text.takeWhile_run hletters
      intro b hb
      rw [hrest b hb]
      rfl
    obtain ⟨n, hn⟩ := Nat.exists_eq_succ_of_ne_zero (mt List.length_eq_zero_iff.1 hw.1)
    simp only [htake, hn]

/-- A space before a word stands alone. -/
theorem front_space {t : Text} (ht : ∀ b ∈ t.head?, Line.isBlank b = false) :
    front (Text.space :: t) = .blanks 1 := by
  have hnone : longestFirst.find? (startsWith (Text.space :: t)) = none := by
    rw [List.find?_eq_none]
    intro k hk hstarts
    have hkeyword := mem_keywords_of_mem_longestFirst hk
    rw [startsWith, Bool.and_eq_true] at hstarts
    obtain ⟨b, more, htext⟩ := List.exists_cons_of_ne_nil (Line.isWord_text hkeyword).1
    obtain ⟨behind, hbehind⟩ := List.isPrefixOf_iff_prefix.1 hstarts.1
    rw [htext, List.cons_append, List.cons.injEq] at hbehind
    have hinner := Line.isInner_of_mem_keyword hkeyword (htext ▸ List.mem_cons_self)
    rw [hbehind.1] at hinner
    exact absurd hinner.1 (by decide)
  have hletters : (Text.space :: t).takeWhile Text.isAsciiLetter = [] := rfl
  have hspace : ([Text.space] ++ t).takeWhile isBlank = [Text.space] := by
    apply Text.takeWhile_run (fun b hb => by rw [List.mem_singleton.1 hb]; rfl)
    intro b hb
    have hblank := ht b hb
    simp only [Line.isBlank, Bool.or_eq_false_iff] at hblank
    simp only [isBlank, Bool.or_eq_false_iff]
    exact ⟨hblank.1.1.1.1.1, hblank.1.1.1.1.2⟩
  rw [List.singleton_append] at hspace
  unfold front
  rw [hnone]
  simp only [hletters, hspace, List.length_nil, List.length_singleton]

/-! ## Taking joined words apart -/

/-- Bytes that are already read are passed over. -/
theorem scanFrom_skip (offset : Nat) (t rest : Text) :
    scanFrom offset t.length (t ++ rest) = scanFrom (offset + t.length) 0 rest := by
  induction t generalizing offset with
  | nil => rfl
  | cons b t ih =>
    rw [List.cons_append, List.length_cons, scanFrom, ih,
      show offset + 1 + t.length = offset + (t.length + 1) from by omega]

/-- The lexemes of words with single spaces between them. -/
def ofWords (offset : Nat) : List Text → List Lexeme
  | [] => []
  | w :: words => ⟨sortOf w, w, offset⟩ :: ofWords (offset + w.length + 1) words

/-- A word at the front is read as a whole, and then what stands behind it. -/
theorem scanFrom_of_front_word {sort : LexemeSort} (hw : w ≠ [])
    (hfront : front (w ++ rest) = .word sort w.length) (offset : Nat) :
    scanFrom offset 0 (w ++ rest)
      = (scanFrom (offset + w.length) 0 rest).map (⟨sort, w, offset⟩ :: ·) := by
  obtain ⟨b, more, rfl⟩ := List.exists_cons_of_ne_nil hw
  have hskip := scanFrom_skip (offset + 1) more rest
  rw [List.cons_append] at hfront ⊢
  rw [scanFrom, hfront]
  dsimp only
  rw [List.length_cons, Nat.add_sub_cancel, hskip, ← List.cons_append, ← List.length_cons (a := b),
    List.take_left, List.length_cons, Nat.add_assoc, Nat.add_comm 1]

/-- Blanks at the front are passed over. -/
theorem scanFrom_of_front_blanks (hw : w ≠ []) (hfront : front (w ++ rest) = .blanks w.length)
    (offset : Nat) :
    scanFrom offset 0 (w ++ rest) = scanFrom (offset + w.length) 0 rest := by
  obtain ⟨b, more, rfl⟩ := List.exists_cons_of_ne_nil hw
  have hskip := scanFrom_skip (offset + 1) more rest
  rw [List.cons_append] at hfront ⊢
  rw [scanFrom, hfront]
  dsimp only
  rw [List.length_cons, Nat.add_sub_cancel, hskip, Nat.add_assoc, Nat.add_comm 1]

theorem scanFrom_word (hw : Line.IsWord w) (hrest : ∀ b ∈ rest.head?, b = Text.space)
    (offset : Nat) :
    scanFrom offset 0 (w ++ rest)
      = (scanFrom (offset + w.length) 0 rest).map (⟨sortOf w, w, offset⟩ :: ·) :=
  scanFrom_of_front_word hw.1 (front_word hw hrest) offset

theorem scanFrom_space {t : Text} (ht : ∀ b ∈ t.head?, Line.isBlank b = false) (offset : Nat) :
    scanFrom offset 0 (Text.space :: t) = scanFrom (offset + 1) 0 t :=
  scanFrom_of_front_blanks (w := [Text.space]) (List.cons_ne_nil _ _) (front_space ht) offset

theorem scanFrom_join {words : List Text} (h : ∀ w ∈ words, Line.IsWord w) (offset : Nat) :
    scanFrom offset 0 (Text.join [Text.space] words) = .ok (ofWords offset words) := by
  induction words generalizing offset with
  | nil => rfl
  | cons w words ih =>
    have hw : Line.IsWord w := h w List.mem_cons_self
    have hwords : ∀ w' ∈ words, Line.IsWord w' := fun w' hw' => h w' (List.mem_cons_of_mem w hw')
    cases words with
    | nil =>
      have hscan := @scanFrom_word w [] hw (by simp) offset
      rw [List.append_nil] at hscan
      rw [Text.join, hscan]
      rfl
    | cons u us =>
      have hu : Line.IsWord u := hwords u List.mem_cons_self
      have hhead : ∀ b ∈ (Text.join [Text.space] (u :: us)).head?, Line.isBlank b = false := by
        intro b hb
        rw [Text.head?_join hu.1] at hb
        exact (hu.isInner (List.mem_of_mem_head? hb)).1
      rw [Text.join_cons_cons, List.singleton_append, scanFrom_word hw (by simp),
        scanFrom_space hhead, ih hwords]
      rfl

/-- **Joined words are taken apart into the words.** -/
theorem scan_join {words : List Text} (h : ∀ w ∈ words, Line.IsWord w) :
    scan (Text.join [Text.space] words) = .ok (ofWords 0 words) :=
  scanFrom_join h 0

/-! ## Other names -/

/-- Two words of the same class, of which the second is called as `texts` tells. -/
structure Alike (texts : Text → Text) (l l' : Lexeme) : Prop where
  isWord : Line.IsWord l.text
  sort : l.sort = sortOf l.text
  sort_eq : l'.sort = l.sort
  text : l'.text = texts l.text

theorem alike_ofWords {texts : Text → Text} (hρ : Line.Rewording texts) {words : List Text}
    (h : ∀ w ∈ words, Line.IsWord w) (offset offset' : Nat) :
    List.Forall₂ (Alike texts) (ofWords offset words) (ofWords offset' (words.map texts)) := by
  induction words generalizing offset offset' with
  | nil => exact .nil
  | cons w words ih =>
    refine .cons ⟨h w List.mem_cons_self, rfl, ?_, rfl⟩
      (ih (fun w' hw' => h w' (List.mem_cons_of_mem w hw')) _ _)
    rw [sortOf, sortOf, hρ.kindOf]

end Lexeme

namespace Expr

variable {texts : Text → Text} {α β α' β' : Type}

/-- Both readings give something, or both fail. -/
def Reading (values : α → β → Prop) : Except ExprProblem α → Except ExprProblem β → Prop
  | .ok a, .ok b => values a b
  | .error _, .error _ => True
  | _, _ => False

theorem Reading.map {values : α → β → Prop} {values' : α' → β' → Prop}
    {x : Except ExprProblem α} {y : Except ExprProblem β} (h : Reading values x y) {f : α → α'}
    {g : β → β'} (hvalues : ∀ a b, values a b → values' (f a) (g b)) :
    Reading values' (x.map f) (y.map g) := by
  cases x with
  | ok a =>
    cases y with
    | ok b => exact hvalues a b h
    | error e' => exact h.elim
  | error e =>
    cases y with
    | ok b => exact h.elim
    | error e' => trivial

/-- A word stands for the same term under its other name. -/
theorem operand?_alike (hρ : Line.Rewording texts) {l l' : Lexeme} (h : l.Alike texts l') :
    Option.Rel (fun o o' => o.term.Alike texts o'.term) (operand? l) (operand? l') := by
  unfold operand?
  rw [h.text, h.sort_eq, h.sort]
  rcases Line.keyword_or_name h.isWord.2 with ⟨k, hk, htext⟩ | ⟨hword, hkind, -⟩
  · rw [htext, hρ.text_eq hk, Kind.ofWord?_text hk, Lexeme.sortOf, Line.kindOf_text hk]
    cases k with
    | truth value => exact .some (.literal _)
    | sensor sensor => exact .some (.sensor _)
    | ident => exact absurd hk (by decide)
    | _ => exact .none
  · have hword' := (Line.name_of_kindOf (hρ.ident hkind)).1
    rw [hword, hword', Lexeme.sortOf, hkind]
    exact .some (.name _)

/-- Where a term is expected, the same one is read on both sides, or none. -/
theorem reading_operand (hρ : Line.Rewording texts) {l l' : Lexeme} (h : l.Alike texts l')
    {values : α → β → Prop} {f : Operand → Except ExprProblem α}
    {g : Operand → Except ExprProblem β}
    (hvalues : ∀ o o', o.term.Alike texts o'.term → Reading values (f o) (g o'))
    (problem problem' : ExprProblem) :
    Reading values
      (match operand? l with
        | some o => f o
        | none => .error problem)
      (match operand? l' with
        | some o => g o
        | none => .error problem') := by
  have hoperand := operand?_alike hρ h
  revert hoperand
  cases operand? l with
  | none =>
    cases operand? l' with
    | none => exact fun _ => trivial
    | some o' => nofun
  | some o =>
    cases operand? l' with
    | none => nofun
    | some o' =>
      intro hoperand
      cases hoperand with
      | some hterm => exact hvalues o o' hterm

theorem reading_parseTail (hρ : Line.Rewording texts) {ls ls' : List Lexeme}
    (h : List.Forall₂ (Lexeme.Alike texts) ls ls') (state : Expecting) :
    Reading (List.Forall₂ (LinkAlike texts)) (parseTail state ls) (parseTail state ls') := by
  induction h generalizing state with
  | nil =>
    cases state with
    | operator => exact .nil
    | afterAnd => trivial
    | operand c => trivial
  | @cons l l' ls ls' hl _ ih =>
    have hor : l'.text = Kind.or.text ↔ l.text = Kind.or.text := by
      rw [hl.text]
      exact hρ.eq_text_iff (by decide)
    have hand : l'.text = Kind.and.text ↔ l.text = Kind.and.text := by
      rw [hl.text]
      exact hρ.eq_text_iff (by decide)
    have hterm : ∀ c o o', o.term.Alike texts o'.term →
        Reading (List.Forall₂ (LinkAlike texts)) ((parseTail .operator ls).map ((c, o) :: ·))
          ((parseTail .operator ls').map ((c, o') :: ·)) :=
      fun c o o' ho => (ih .operator).map fun _ _ htail => .cons ⟨rfl, ho⟩ htail
    cases state with
    | operator =>
      simp only [parseTail, hor, hand]
      split
      · exact ih _
      · split
        · exact ih _
        · trivial
    | afterAnd =>
      simp only [parseTail, hor]
      split
      · exact ih _
      · exact reading_operand hρ hl (hterm .and) _ _
    | operand c => exact reading_operand hρ hl (hterm c) _ _

theorem reading_ofLexemes (hρ : Line.Rewording texts) {ls ls' : List Lexeme}
    (h : List.Forall₂ (Lexeme.Alike texts) ls ls') :
    Reading (Alike texts) (ofLexemes ls) (ofLexemes ls') := by
  cases h with
  | nil => trivial
  | cons hl hls =>
    refine reading_operand hρ hl (fun o o' ho => ?_) _ _
    exact (reading_parseTail hρ hls .operator).map fun _ _ htail => ⟨ho, htail⟩

/-- **With other names the same expression is read, or none.** -/
theorem reading_ofText (hρ : Line.Rewording texts) {words : List Text}
    (h : ∀ w ∈ words, Line.IsWord w) :
    Reading (Alike texts) (ofText (Text.join [Text.space] words))
      (ofText (Text.join [Text.space] (words.map texts))) := by
  have h' : ∀ w ∈ words.map texts, Line.IsWord w := by
    intro w hw
    obtain ⟨old, hold, rfl⟩ := List.mem_map.1 hw
    exact hρ.isWord (h old hold)
  unfold ofText
  rw [Lexeme.scan_join h, Lexeme.scan_join h']
  exact reading_ofLexemes hρ (Lexeme.alike_ofWords hρ h 0 0)

end Expr

end RobotMaze

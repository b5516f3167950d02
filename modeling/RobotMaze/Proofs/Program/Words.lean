import RobotMaze.Program
import Mathlib.Data.List.TakeWhile
import Mathlib.Tactic.Common

/-!
# Words on lines

A line that is written as words with single spaces between them is read back as these words.

* `Line.IsWord` — the texts that are words;
* `Line.Rewording` — other texts for words;
* `Token.ofLine_eq_ok`, `Token.ofLine_eq_error` — what the tokens of a line are, and its fault;
* `Token.ofLine_join` — the tokens of a line of words are the words;
* `Program.ofSource_join` — the lines of a source are the lines it was put together from;
* `Program.Reads` and `Program.Holds` — a line, or a row of lines, is read as given words.
-/

namespace RobotMaze

/-! ## Cutting what was joined -/

namespace Text

/-- A run at the front of a text is what is taken while its bytes are of one class. -/
theorem takeWhile_run {w rest : Text} {p : UInt8 → Bool} (hw : ∀ b ∈ w, p b = true)
    (hend : ∀ b ∈ rest.head?, p b = false) : (w ++ rest).takeWhile p = w := by
  rw [List.takeWhile_append_of_pos hw]
  cases rest with
  | nil => rw [List.takeWhile_nil, List.append_nil]
  | cons b rest => rw [List.takeWhile_cons, hend b rfl, if_neg Bool.false_ne_true, List.append_nil]

theorem splitOn_of_not_mem {sep : UInt8} {t : Text} (h : sep ∉ t) : splitOn sep t = [t] := by
  induction t with
  | nil => rfl
  | cons b t ih =>
    rw [List.mem_cons, not_or] at h
    rw [splitOn, if_neg (Ne.symm h.1), ih h.2]

theorem splitOn_append {sep : UInt8} {t : Text} (h : sep ∉ t) (rest : Text) :
    splitOn sep (t ++ sep :: rest) = t :: splitOn sep rest := by
  induction t with
  | nil => rw [List.nil_append, splitOn, if_pos rfl]
  | cons b t ih =>
    rw [List.mem_cons, not_or] at h
    rw [List.cons_append, splitOn, if_neg (Ne.symm h.1), ih h.2]

theorem splitOn_ne_nil (sep : UInt8) (t : Text) : splitOn sep t ≠ [] := by
  cases t with
  | nil => exact List.cons_ne_nil _ _
  | cons b t =>
    rw [splitOn]
    split
    · exact List.cons_ne_nil _ _
    · split <;> exact List.cons_ne_nil _ _

/-- The byte that a text is cut at stands in no part. -/
theorem not_mem_of_mem_splitOn {sep : UInt8} {t part : Text} (h : part ∈ splitOn sep t) :
    sep ∉ part := by
  induction t generalizing part with
  | nil =>
    cases List.mem_singleton.1 h
    exact List.not_mem_nil
  | cons b t ih =>
    rw [splitOn] at h
    split at h
    · rcases List.mem_cons.1 h with rfl | h
      · exact List.not_mem_nil
      · exact ih h
    · next hb =>
      split at h
      · next hnil => exact absurd hnil (splitOn_ne_nil sep t)
      · next first rest hsplit =>
        rw [hsplit] at ih
        rcases List.mem_cons.1 h with rfl | h
        · rw [List.mem_cons, not_or]
          exact ⟨Ne.symm hb, ih List.mem_cons_self⟩
        · exact ih (List.mem_cons_of_mem first h)

theorem join_cons_cons (sep t u : Text) (ts : List Text) :
    join sep (t :: u :: ts) = t ++ (sep ++ join sep (u :: ts)) :=
  List.append_assoc _ _ _

/-- What was joined with a byte is cut at that byte. -/
theorem splitOn_join {sep : UInt8} {ts : List Text} (hne : ts ≠ []) (h : ∀ t ∈ ts, sep ∉ t) :
    splitOn sep (join [sep] ts) = ts := by
  induction ts with
  | nil => exact absurd rfl hne
  | cons t ts ih =>
    have ht : sep ∉ t := h t List.mem_cons_self
    match ts, ih, h with
    | [], _, _ => exact splitOn_of_not_mem ht
    | u :: us, ih, h =>
      rw [join_cons_cons, List.singleton_append, splitOn_append ht]
      rw [ih (List.cons_ne_nil u us) fun t' ht' => h t' (List.mem_cons_of_mem t ht')]

theorem head?_join {sep t : Text} (ht : t ≠ []) (ts : List Text) :
    (join sep (t :: ts)).head? = t.head? := by
  obtain ⟨b, t', rfl⟩ := List.exists_cons_of_ne_nil ht
  match ts with
  | [] => rfl
  | u :: us => rfl

/-- The bytes of joined texts are theirs and the separator's. -/
theorem mem_join {sep : Text} {ts : List Text} {b : UInt8} (h : b ∈ join sep ts) :
    b ∈ sep ∨ ∃ t ∈ ts, b ∈ t := by
  induction ts with
  | nil => cases h
  | cons t ts ih =>
    match ts, ih, h with
    | [], _, h => exact .inr ⟨t, List.mem_cons_self, h⟩
    | u :: us, ih, h =>
      rw [join_cons_cons, List.mem_append, List.mem_append] at h
      rcases h with h | h | h
      · exact .inr ⟨t, List.mem_cons_self, h⟩
      · exact .inl h
      · rcases ih h with h | ⟨t', ht', h⟩
        · exact .inl h
        · exact .inr ⟨t', List.mem_cons_of_mem t ht', h⟩

end Text

/-! ## Words -/

namespace Line

/-- A text that is one word of a line. -/
def IsWord (w : Text) : Prop := w ≠ [] ∧ kindOf w ≠ .illegal

/-- A byte that a word can have: it is not blank and starts no comment. -/
def IsInner (b : UInt8) : Prop := isBlank b = false ∧ b ≠ commentMark

theorem isInner_of_isAsciiLetter {b : UInt8} (h : Text.isAsciiLetter b = true) : IsInner b := by
  simp only [Text.isAsciiLetter, Bool.or_eq_true, Bool.and_eq_true, decide_eq_true_eq,
    UInt8.le_iff_toNat_le] at h
  -- all letters come after the blanks and after `@`
  have hb : 65 ≤ b.toNat := by
    rcases h with h | h
    · exact h.1
    · exact Nat.le_trans (by decide) h.1
  have hne : ∀ c : UInt8, c.toNat < 65 → b ≠ c := by
    rintro c hc rfl
    omega
  constructor
  · simp only [isBlank, Bool.or_eq_false_iff, beq_eq_false_iff_ne]
    refine ⟨⟨⟨⟨⟨?_, ?_⟩, ?_⟩, ?_⟩, ?_⟩, ?_⟩ <;> exact hne _ (by decide)
  · exact hne _ (by decide)

theorem isInner_of_mem_keyword {k : Kind} (hk : k ∈ Kind.keywords) {b : UInt8} (hb : b ∈ k.text) :
    IsInner b := by
  have hall : (Kind.keywords.all fun k =>
      k.text.all fun b => !isBlank b && b != commentMark) = true := by
    decide
  have hbyte := List.all_eq_true.1 (List.all_eq_true.1 hall k hk) b hb
  rw [Bool.and_eq_true, Bool.not_eq_true', bne_iff_ne] at hbyte
  exact hbyte

theorem kindOf_text {k : Kind} (h : k ∈ Kind.keywords) : kindOf k.text = k := by
  rw [kindOf, Kind.ofWord?_text h]

/-- The word of a keyword is the only one of its kind. -/
theorem text_of_kindOf {w : Text} {k : Kind} (h : kindOf w = k) (hk : k ∈ Kind.keywords) :
    w = k.text := by
  unfold kindOf at h
  split at h
  · next found hfound =>
    have htext : found.text = w := by simpa using List.find?_some hfound
    rw [← h, htext]
  · exfalso
    split at h
    · rw [← h] at hk
      exact absurd hk (by decide)
    · rw [← h] at hk
      exact absurd hk (by decide)

theorem isWord_text {k : Kind} (h : k ∈ Kind.keywords) : IsWord k.text := by
  have hall : ∀ k ∈ Kind.keywords, k.text ≠ [] ∧ k ≠ .illegal := by decide
  refine ⟨(hall k h).1, ?_⟩
  rw [kindOf_text h]
  exact (hall k h).2

/-- A word is a keyword or a name. -/
theorem keyword_or_name {w : Text} (h : kindOf w ≠ .illegal) :
    (∃ k ∈ Kind.keywords, w = k.text) ∨
      Kind.ofWord? w = none ∧ kindOf w = .ident ∧ ∀ b ∈ w, Text.isAsciiLetter b = true := by
  unfold kindOf at h ⊢
  cases hfound : Kind.ofWord? w with
  | some k =>
    have htext : k.text = w := by simpa using List.find?_some hfound
    exact .inl ⟨k, List.mem_of_find?_eq_some hfound, htext.symm⟩
  | none =>
    rw [hfound] at h
    by_cases hall : w.all Text.isAsciiLetter = true
    · exact .inr ⟨rfl, by simp [hall], List.all_eq_true.1 hall⟩
    · simp [hall] at h

/-- A name is no keyword, and it is made of letters. -/
theorem name_of_kindOf {w : Text} (h : kindOf w = .ident) :
    Kind.ofWord? w = none ∧ ∀ b ∈ w, Text.isAsciiLetter b = true := by
  rcases keyword_or_name (by rw [h]; decide) with ⟨k, hk, rfl⟩ | ⟨hnone, -, hletters⟩
  · rw [kindOf_text hk] at h
    rw [h] at hk
    exact absurd hk (by decide)
  · exact ⟨hnone, hletters⟩

/-- The bytes of a word are letters, or bytes of keywords. -/
theorem byte_of_kindOf {w : Text} (h : kindOf w ≠ .illegal) {b : UInt8} (hb : b ∈ w) :
    Text.isAsciiLetter b = true ∨ ∃ k ∈ Kind.keywords, b ∈ k.text := by
  rcases keyword_or_name h with ⟨k, hk, rfl⟩ | ⟨-, -, hletters⟩
  · exact .inr ⟨k, hk, hb⟩
  · exact .inl (hletters b hb)

/-- The bytes of a word neither separate words nor start a comment. -/
theorem IsWord.isInner {w : Text} (h : IsWord w) {b : UInt8} (hb : b ∈ w) : IsInner b := by
  rcases byte_of_kindOf h.2 hb with hletter | ⟨k, hk, hbk⟩
  · exact isInner_of_isAsciiLetter hletter
  · exact isInner_of_mem_keyword hk hbk

/-- Other texts for words: names become other names, and all else stays. -/
structure Rewording (texts : Text → Text) : Prop where
  injective : texts.Injective
  nil : texts [] = []
  ident : ∀ {w}, kindOf w = .ident → kindOf (texts w) = .ident
  other : ∀ {w}, kindOf w ≠ .ident → texts w = w

namespace Rewording

variable {texts : Text → Text} {w : Text}

theorem refl : Rewording id := ⟨Function.injective_id, rfl, id, fun _ => rfl⟩

theorem kindOf (h : Rewording texts) (w : Text) : Line.kindOf (texts w) = Line.kindOf w := by
  by_cases hkind : Line.kindOf w = .ident
  · rw [h.ident hkind, hkind]
  · rw [h.other hkind]

theorem eq_nil_iff (h : Rewording texts) : texts w = [] ↔ w = [] := by
  constructor
  · intro hnil
    exact h.injective (hnil.trans h.nil.symm)
  · rintro rfl
    exact h.nil

theorem isWord (h : Rewording texts) (hw : IsWord w) : IsWord (texts w) := by
  refine ⟨mt h.eq_nil_iff.1 hw.1, ?_⟩
  rw [h.kindOf]
  exact hw.2

theorem text_eq (h : Rewording texts) {k : Kind} (hk : k ∈ Kind.keywords) :
    texts k.text = k.text := by
  apply h.other
  rw [kindOf_text hk]
  rintro rfl
  exact absurd hk (by decide)

theorem eq_text_iff (h : Rewording texts) {k : Kind} (hk : k ∈ Kind.keywords) :
    texts w = k.text ↔ w = k.text := by
  constructor
  · intro htext
    exact h.injective (htext.trans (h.text_eq hk).symm)
  · rintro rfl
    exact h.text_eq hk

/-- No bytes but letters come in. -/
theorem mem (h : Rewording texts) {b : UInt8} (hb : b ∈ texts w) :
    b ∈ w ∨ Text.isAsciiLetter b = true := by
  by_cases hkind : Line.kindOf w = .ident
  · exact .inr ((name_of_kindOf (h.ident hkind)).2 b hb)
  · rw [h.other hkind] at hb
    exact .inl hb

end Rewording

/-! ## Reading words -/

theorem pieces_blank {b : UInt8} (hb : isBlank b = true) (seen : Nat) (rest : Text) :
    pieces seen (b :: rest) = pieces (if b = Text.lineFeed then 0 else seen + 1) rest := by
  rw [pieces.eq_def]
  simp only [hb, if_true]

/-- The last byte of a piece. -/
theorem pieces_last {b : UInt8} (hb : isBlank b = false) (seen : Nat) {rest : Text}
    (hrest : ∀ c ∈ rest.head?, isBlank c = true) :
    pieces seen (b :: rest) = ⟨[b], seen + 1⟩ :: pieces (seen + 1) rest := by
  rw [pieces.eq_def]
  simp only [hb, Bool.false_eq_true, if_false]
  match rest, hrest with
  | [], _ => rfl
  | c :: rest, hrest =>
    have hc : isBlank c = true := hrest c rfl
    cases pieces (seen + 1) (c :: rest) with
    | nil => rfl
    | cons p ps => simp only [hc, if_true]

/-- A byte of a piece before its last. -/
theorem pieces_inner {b c : UInt8} (hb : isBlank b = false) (hc : isBlank c = false) {seen : Nat}
    {rest : Text} {p : Piece} {ps : List Piece} (h : pieces (seen + 1) (c :: rest) = p :: ps) :
    pieces seen (b :: c :: rest) = ⟨b :: p.text, seen + 1⟩ :: ps := by
  rw [pieces.eq_def]
  simp only [hb, hc, h, Bool.false_eq_true, if_false]

/-- A word at the front of a text is its first piece. -/
theorem pieces_append {w : Text} (hne : w ≠ []) (hw : ∀ b ∈ w, isBlank b = false) (seen : Nat)
    {rest : Text} (hrest : ∀ b ∈ rest.head?, isBlank b = true) :
    pieces seen (w ++ rest) = ⟨w, seen + 1⟩ :: pieces (seen + w.length) rest := by
  induction w generalizing seen with
  | nil => exact absurd rfl hne
  | cons b w ih =>
    have hb : isBlank b = false := hw b List.mem_cons_self
    -- a byte is joined to the piece after it unless a blank comes first
    match w, ih, hw with
    | [], _, _ => exact pieces_last hb seen hrest
    | c :: w, ih, hw =>
      have hc : isBlank c = false := hw c (by simp)
      have hih := ih (List.cons_ne_nil c w) (fun b' hb' => hw b' (List.mem_cons_of_mem b hb'))
        (seen + 1)
      rw [List.cons_append] at hih
      rw [List.cons_append, List.cons_append, pieces_inner hb hc hih]
      rw [show seen + 1 + (c :: w).length = seen + (b :: c :: w).length from by
        simp only [List.length_cons]
        omega]

/-- No piece is empty. -/
theorem text_ne_nil_of_mem_pieces {seen : Nat} {text : Text} {p : Piece}
    (h : p ∈ pieces seen text) : p.text ≠ [] := by
  induction text generalizing seen p with
  | nil => cases h
  | cons b rest ih =>
    rw [pieces.eq_def] at h
    dsimp only at h
    split at h
    · exact ih h
    · split at h
      · next c _ q qs hpieces =>
        split at h
        · rcases List.mem_cons.1 h with rfl | h
          · exact List.cons_ne_nil _ _
          · exact ih (hpieces ▸ h)
        · rcases List.mem_cons.1 h with rfl | h
          · exact List.cons_ne_nil _ _
          · exact ih (hpieces ▸ List.mem_cons_of_mem q h)
      · rcases List.mem_cons.1 h with rfl | h
        · exact List.cons_ne_nil _ _
        · exact ih h

/-- The pieces of joined words are the words. -/
theorem pieces_join {words : List Text} (h : ∀ w ∈ words, IsWord w) (seen : Nat) :
    (pieces seen (Text.join [Text.space] words)).map Piece.text = words := by
  induction words generalizing seen with
  | nil => rfl
  | cons w words ih =>
    have hw : IsWord w := h w List.mem_cons_self
    have hin : ∀ b ∈ w, isBlank b = false := fun b hb => (hw.isInner hb).1
    match words, ih, h with
    | [], _, _ =>
      have hone := @pieces_append w hw.1 hin seen [] (by simp)
      rw [List.append_nil] at hone
      rw [Text.join, hone]
      rfl
    | u :: us, ih, h =>
      have hspace : isBlank Text.space = true := by decide
      rw [Text.join_cons_cons, pieces_append hw.1 hin seen (by simp [hspace]), List.map_cons,
        List.singleton_append, pieces_blank hspace,
        ih fun w' hw' => h w' (List.mem_cons_of_mem w hw')]

/-- The token of a piece that is a word. -/
def wordToken (lead : Nat) (p : Piece) : Token :=
  { kind := kindOf p.text, literal := p.text, column := p.column + lead }

theorem tokenOf_eq_ok {p : Piece} (h : kindOf p.text ≠ .illegal) (number : Int) (lead : Nat) :
    tokenOf number lead p = .ok (wordToken lead p) := by
  unfold tokenOf wordToken
  cases hk : kindOf p.text with
  | illegal => exact absurd hk h
  | _ => rfl

theorem mapM_tokenOf {ps : List Piece} (h : ∀ p ∈ ps, kindOf p.text ≠ .illegal) (number : Int)
    (lead : Nat) : ps.mapM (tokenOf number lead) = .ok (ps.map (wordToken lead)) := by
  induction ps with
  | nil => rfl
  | cons p ps ih =>
    rw [List.mapM_cons, tokenOf_eq_ok (h p List.mem_cons_self),
      ih fun q hq => h q (List.mem_cons_of_mem p hq)]
    rfl

theorem tokenOf_of_illegal {p : Piece} (h : kindOf p.text = .illegal) (number : Int) (lead : Nat) :
    tokenOf number lead p = .error ⟨faultOf p.text, number, p.column + lead⟩ := by
  unfold tokenOf
  rw [h]

/-- Pieces are all words, or the first one that is none is the fault. -/
theorem mapM_tokenOf_cases (ps : List Piece) (number : Int) (lead : Nat) :
    (∀ p ∈ ps, kindOf p.text ≠ .illegal) ∧
        ps.mapM (tokenOf number lead) = .ok (ps.map (wordToken lead)) ∨
      ∃ before p rest, ps = before ++ p :: rest ∧ (∀ q ∈ before, kindOf q.text ≠ .illegal) ∧
        kindOf p.text = .illegal ∧
        ps.mapM (tokenOf number lead) = .error ⟨faultOf p.text, number, p.column + lead⟩ := by
  induction ps with
  | nil => exact .inl ⟨by simp, rfl⟩
  | cons p ps ih =>
    by_cases hp : kindOf p.text = .illegal
    · refine .inr ⟨[], p, ps, rfl, by simp, hp, ?_⟩
      rw [List.mapM_cons, tokenOf_of_illegal hp]
      rfl
    · have hcons : ∀ {qs : List Piece}, (∀ q ∈ qs, kindOf q.text ≠ .illegal) →
          ∀ q ∈ p :: qs, kindOf q.text ≠ .illegal :=
        fun hqs => List.forall_mem_cons.2 ⟨hp, hqs⟩
      rcases ih with ⟨hps, -⟩ | ⟨before, q, rest, rfl, hbefore, hq, herror⟩
      · exact .inl ⟨hcons hps, mapM_tokenOf (hcons hps) number lead⟩
      · refine .inr ⟨p :: before, q, rest, rfl, hcons hbefore, hq, ?_⟩
        rw [List.mapM_cons, tokenOf_eq_ok hp, herror]
        rfl

/-- The pieces of a line before its comment. -/
def words (line : Text) : List Piece := pieces 0 ((stripComment line).dropWhile isBlank)

/-- The number of blanks that a line starts with. -/
def lead (line : Text) : Nat := ((stripComment line).takeWhile isBlank).length

end Line

/-- A line is read as its words if all of its pieces are words. -/
theorem Token.ofLine_eq_ok {line : Text} {number : Int} {ts : List Token}
    (h : ofLine line number = .ok ts) :
    (∀ p ∈ Line.words line, Line.kindOf p.text ≠ .illegal) ∧
      ts = (Line.words line).map (Line.wordToken (Line.lead line)) := by
  rcases Line.mapM_tokenOf_cases (Line.words line) number (Line.lead line) with
    ⟨hwords, hok⟩ | ⟨before, p, rest, -, -, -, herror⟩
  · exact ⟨hwords, Except.ok.inj (h.symm.trans hok)⟩
  · cases h.symm.trans herror

/-- A line that cannot be read has a first piece that is no word. -/
theorem Token.ofLine_eq_error {line : Text} {number : Int} {err : Error}
    (h : ofLine line number = .error err) :
    ∃ before p rest, Line.words line = before ++ p :: rest ∧
      (∀ q ∈ before, Line.kindOf q.text ≠ .illegal) ∧ Line.kindOf p.text = .illegal ∧
        err = ⟨Line.faultOf p.text, number, p.column + Line.lead line⟩ := by
  rcases Line.mapM_tokenOf_cases (Line.words line) number (Line.lead line) with
    ⟨-, hok⟩ | ⟨before, p, rest, hsplit, hbefore, hp, herror⟩
  · cases h.symm.trans hok
  · exact ⟨before, p, rest, hsplit, hbefore, hp, Except.error.inj (h.symm.trans herror)⟩

/-- Words stand at the very front of a line of words, and no comment cuts it. -/
theorem Line.bare_join {words : List Text} (h : ∀ w ∈ words, IsWord w) :
    stripComment (Text.join [Text.space] words) = Text.join [Text.space] words
      ∧ (Text.join [Text.space] words).takeWhile isBlank = []
      ∧ (Text.join [Text.space] words).dropWhile isBlank = Text.join [Text.space] words := by
  constructor
  · rw [stripComment, List.takeWhile_eq_self_iff]
    intro b hb
    rcases Text.mem_join hb with hb | ⟨w, hw, hb⟩
    · rw [List.mem_singleton.1 hb]
      decide
    · simpa using ((h w hw).isInner hb).2
  · match words, h with
    | [], _ => exact ⟨rfl, rfl⟩
    | w :: ws, h =>
      have hw : IsWord w := h w List.mem_cons_self
      have hhead := @Text.head?_join [Text.space] w hw.1 ws
      cases hj : Text.join [Text.space] (w :: ws) with
      | nil => exact ⟨rfl, rfl⟩
      | cons b rest =>
        rw [hj, List.head?_cons] at hhead
        have hb : isBlank b = false := (hw.isInner (List.mem_of_mem_head? hhead.symm)).1
        rw [List.takeWhile_cons, List.dropWhile_cons, hb]
        exact ⟨rfl, rfl⟩

/-- **A line of words has these words as its tokens.** -/
theorem Token.ofLine_join {words : List Text} (h : ∀ w ∈ words, Line.IsWord w) (number : Int) :
    ∃ ts, Token.ofLine (Text.join [Text.space] words) number = .ok ts
      ∧ Token.literals ts = words ∧ ∀ t ∈ ts, t.kind = Line.kindOf t.literal := by
  obtain ⟨hstrip, htake, hdrop⟩ := Line.bare_join h
  have htexts := Line.pieces_join h 0
  have hlegal : ∀ p ∈ Line.pieces 0 (Text.join [Text.space] words),
      Line.kindOf p.text ≠ .illegal := by
    intro p hp
    exact (h p.text (htexts ▸ List.mem_map_of_mem hp)).2
  refine ⟨(Line.pieces 0 (Text.join [Text.space] words)).map (Line.wordToken 0), ?_, ?_, ?_⟩
  · simp only [Token.ofLine, hstrip, htake, hdrop]
    exact Line.mapM_tokenOf hlegal number 0
  · rw [Token.literals, List.map_map]
    exact htexts
  · intro t ht
    obtain ⟨p, -, rfl⟩ := List.mem_map.1 ht
    rfl

/-! ## Lines of a program -/

namespace Program

/-- Every source has a line. -/
theorem size_pos (src : Text) : 0 < (ofSource src).size := by
  rw [size, ofSource, List.length_map]
  exact List.length_pos_iff.2 (Text.splitOn_ne_nil _ src)

theorem mem_of_line? {p : Program} {n : Int} {line : Text} (h : p.line? n = some line) :
    line ∈ p.lines := by
  rw [line?] at h
  split at h
  · exact List.mem_of_getElem? h
  · cases h

/-- No line of a source has a line feed. -/
theorem lineFeed_not_mem {src line : Text} {n : Int} (h : (ofSource src).line? n = some line) :
    Text.lineFeed ∉ line := by
  obtain ⟨part, hpart, rfl⟩ := List.mem_map.1 (mem_of_line? h)
  intro hmem
  refine Text.not_mem_of_mem_splitOn hpart ?_
  unfold Text.dropLast? at hmem
  split at hmem
  · exact List.dropLast_subset part hmem
  · exact hmem

/-- The lines of joined lines of words are the lines. -/
theorem ofSource_join {lines : List (List Text)} (hne : lines ≠ [])
    (h : ∀ words ∈ lines, ∀ w ∈ words, Line.IsWord w) :
    ofSource (Text.join [Text.lineFeed] (lines.map (Text.join [Text.space])))
      = ⟨lines.map (Text.join [Text.space])⟩ := by
  -- neither line feeds nor carriage returns stand on a line of words, since both are blank
  have hbyte : ∀ t ∈ lines.map (Text.join [Text.space]), ∀ b ∈ t,
      b ≠ Text.lineFeed ∧ b ≠ Text.carriageReturn := by
    intro t ht b hb
    obtain ⟨words, hwords, rfl⟩ := List.mem_map.1 ht
    rcases Text.mem_join hb with hb | ⟨w, hw, hb⟩
    · rw [List.mem_singleton.1 hb]
      decide
    · have hblank := ((h words hwords w hw).isInner hb).1
      constructor
      · rintro rfl
        cases hblank
      · rintro rfl
        cases hblank
  rw [ofSource, Text.splitOn_join (by simpa using hne) fun t ht hb => (hbyte t ht _ hb).1 rfl]
  congr 1
  conv_rhs => rw [← List.map_id (lines.map _)]
  refine List.map_congr_left fun t ht => ?_
  rw [Text.dropLast?, if_neg]
  · rfl
  · intro hlast
    exact (hbyte t ht _ (List.mem_of_getLast? hlast)).2 rfl

/-- The line `n` is read as the given words. -/
def Reads (p : Program) (n : Int) (words : List Text) : Prop :=
  ∃ ts, p.tokens n = .ok ts ∧ Token.literals ts = words ∧ ∀ t ∈ ts, t.kind = Line.kindOf t.literal

/-- The lines from `n` on are read as the given lines of words. -/
def Holds (p : Program) : (n : Int) → List (List Text) → Prop
  | _, [] => True
  | n, words :: lines => p.Reads n words ∧ p.Holds (n + 1) lines

theorem holds_append {p : Program} {n : Int} {lines lines' : List (List Text)} :
    p.Holds n (lines ++ lines') ↔ p.Holds n lines ∧ p.Holds (n + lines.length) lines' := by
  induction lines generalizing n with
  | nil => simp [Holds]
  | cons words lines ih =>
    rw [List.cons_append, Holds, Holds, ih, and_assoc, List.length_cons,
      show n + 1 + (lines.length : Int) = n + ((lines.length + 1 : Nat) : Int) from by omega]

theorem tokens_eq_ok {p : Program} {n : Int} {ts : List Token} (h : p.tokens n = .ok ts) :
    ∃ line, p.line? n = some line ∧ Token.ofLine line n = .ok ts := by
  rw [tokens] at h
  cases hline : p.line? n with
  | none =>
    rw [hline] at h
    cases h
  | some line =>
    rw [hline] at h
    cases hread : Token.ofLine line n with
    | error err =>
      simp only [hread] at h
      cases h
    | ok ts' =>
      simp only [hread] at h
      cases h
      exact ⟨line, rfl, hread⟩

theorem tokens_eq_failed {p : Program} {n : Int} {err : Error}
    (h : p.tokens n = .error (.failed err)) :
    ∃ line, p.line? n = some line ∧ Token.ofLine line n = .error err := by
  rw [tokens] at h
  cases hline : p.line? n with
  | none =>
    rw [hline] at h
    cases h
  | some line =>
    rw [hline] at h
    cases hread : Token.ofLine line n with
    | ok ts =>
      simp only [hread] at h
      cases h
    | error err' =>
      simp only [hread] at h
      cases h
      exact ⟨line, rfl, hread⟩

/-- Every line that can be read is read as the words of its tokens. -/
theorem reads_of_tokens {p : Program} {n : Int} {ts : List Token} (h : p.tokens n = .ok ts) :
    p.Reads n (Token.literals ts) := by
  obtain ⟨line, -, hread⟩ := tokens_eq_ok h
  refine ⟨ts, h, rfl, fun t ht => ?_⟩
  rw [(Token.ofLine_eq_ok hread).2] at ht
  obtain ⟨p, -, rfl⟩ := List.mem_map.1 ht
  rfl

/-- What a line is read as are words. -/
theorem isWord_of_tokens {p : Program} {n : Int} {ts : List Token} (h : p.tokens n = .ok ts) :
    ∀ t ∈ ts, Line.IsWord t.literal := by
  obtain ⟨line, -, hread⟩ := tokens_eq_ok h
  obtain ⟨hlegal, rfl⟩ := Token.ofLine_eq_ok hread
  intro t ht
  obtain ⟨piece, hpiece, rfl⟩ := List.mem_map.1 ht
  exact ⟨Line.text_ne_nil_of_mem_pieces hpiece, hlegal piece hpiece⟩

/-- Tokens of keywords are read as these keywords. -/
theorem reads_keywords {p : Program} {n : Int} {ts : List Token} {kinds : List Kind}
    (h : p.tokens n = .ok ts) (hkinds : ts.map Token.kind = kinds)
    (hkeywords : ∀ k ∈ kinds, k ∈ Kind.keywords) : p.Reads n (kinds.map Kind.text) := by
  have hreads := reads_of_tokens h
  obtain ⟨ts', hts', -, hkind⟩ := hreads
  cases h.symm.trans hts'
  refine ⟨ts, h, ?_, hkind⟩
  subst hkinds
  rw [Token.literals, List.map_map]
  refine List.map_congr_left fun t ht => ?_
  exact Line.text_of_kindOf (hkind t ht).symm (hkeywords _ (List.mem_map_of_mem ht))

/-- The tokens of a line that is not empty. -/
theorem Reads.cons {p : Program} {n : Int} {w : Text} {words : List Text}
    (h : p.Reads n (w :: words)) :
    ∃ head args, p.tokens n = .ok (head :: args) ∧ head.kind = Line.kindOf w ∧ head.literal = w
      ∧ Token.literals args = words ∧ ∀ t ∈ args, t.kind = Line.kindOf t.literal := by
  obtain ⟨ts, hts, hlit, hkind⟩ := h
  match ts, hlit with
  | head :: args, hlit =>
    rw [Token.literals, List.map_cons, List.cons.injEq] at hlit
    obtain ⟨rfl, hargs⟩ := hlit
    exact ⟨head, args, hts, hkind head List.mem_cons_self, rfl, hargs,
      fun t ht => hkind t (List.mem_cons_of_mem head ht)⟩

/-- Lines of words that stand in a program are read as such. -/
theorem holds_of_lines {p : Program} {before : List Text} {lines : List (List Text)}
    (hlines : p.lines = before ++ lines.map (Text.join [Text.space]))
    (h : ∀ words ∈ lines, ∀ w ∈ words, Line.IsWord w) : p.Holds (before.length + 1) lines := by
  -- the lines that are already read move over to `before`
  induction lines generalizing before with
  | nil => trivial
  | cons words lines ih =>
    constructor
    · obtain ⟨ts, hts, hread⟩ := Token.ofLine_join (h words List.mem_cons_self)
        ((before.length : Int) + 1)
      refine ⟨ts, ?_, hread⟩
      have hline : p.line? ((before.length : Int) + 1) = some (Text.join [Text.space] words) := by
        rw [line?, if_pos (by omega), hlines, show ((before.length : Int) + 1 - 1).toNat
          = before.length from by omega]
        simp
      rw [tokens, hline]
      simp only [hts]
      rfl
    · have hrest := @ih (before ++ [Text.join [Text.space] words]) (by simp [hlines])
        fun ws hws => h ws (List.mem_cons_of_mem words hws)
      rw [List.length_append, List.length_singleton] at hrest
      exact hrest

end Program

end RobotMaze

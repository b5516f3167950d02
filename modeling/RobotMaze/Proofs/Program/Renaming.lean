import RobotMaze.Proofs.Program.Rows
import RobotMaze.Proofs.Structured.Code

/-!
# Sources with other names

The names in a source are replaced by others, and everything else stays: keywords, blanks, comments
and line ends.  Each line of the new source is read as the words of the old line with the names
replaced.

* `Line.rename` — what a word is called, given other names for names;
* `Program.rewordSource` — a source with other words;
* `Program.ofSource_reword` — its lines are the old lines with other names;
* `Program.relaid_reword` — its rows are the old rows with other names.
-/

namespace RobotMaze

open Structured (Name)

/-! ## Other names for words -/

theorem Structured.Name.eq_of_word {x y : Name} (h : x.word = y.word) : x = y := by
  cases x
  cases y
  cases h
  rfl

namespace Line

/-- What a word is called if names are replaced by their images under `f`. -/
def rename (f : Name → Name) (w : Text) : Text :=
  if h : w ≠ [] ∧ kindOf w = .ident then (f ⟨w, h.1, h.2⟩).word else w

theorem rename_word (f : Name → Name) (x : Name) : rename f x.word = (f x).word :=
  dif_pos ⟨x.nonempty, x.isIdent⟩

theorem rename_of_not {f : Name → Name} {w : Text} (h : ¬ (w ≠ [] ∧ kindOf w = .ident)) :
    rename f w = w :=
  dif_neg h

/-- Every text is a name or stays as it is. -/
theorem rename_cases (f : Name → Name) (w : Text) :
    (∃ x : Name, w = x.word ∧ rename f w = (f x).word) ∨
      ¬ (w ≠ [] ∧ kindOf w = .ident) ∧ rename f w = w := by
  by_cases h : w ≠ [] ∧ kindOf w = .ident
  · exact .inl ⟨⟨w, h.1, h.2⟩, rfl, rename_word f ⟨w, h.1, h.2⟩⟩
  · exact .inr ⟨h, rename_of_not h⟩

theorem rename_injective {f : Name → Name} (hf : f.Injective) : (rename f).Injective := by
  intro v w hvw
  rcases rename_cases f v with ⟨x, rfl, hx⟩ | ⟨hv, hv'⟩
  · rcases rename_cases f w with ⟨y, rfl, hy⟩ | ⟨hw, hw'⟩
    · rw [hx, hy] at hvw
      rw [hf (Name.eq_of_word hvw)]
    · rw [hx, hw'] at hvw
      exact absurd ⟨hvw ▸ (f x).nonempty, hvw ▸ (f x).isIdent⟩ hw
  · rcases rename_cases f w with ⟨y, rfl, hy⟩ | ⟨hw, hw'⟩
    · rw [hv', hy] at hvw
      exact absurd ⟨hvw ▸ (f y).nonempty, hvw ▸ (f y).isIdent⟩ hv
    · rw [← hv', hvw, hw']

/-- Other names that are different for different names are a rewording. -/
theorem rewording_rename {f : Name → Name} (hf : f.Injective) : Rewording (rename f) where
  injective := rename_injective hf
  nil := rename_of_not fun h => h.1 rfl
  ident := by
    intro w hw
    rcases rename_cases f w with ⟨x, -, hx⟩ | ⟨-, hsame⟩
    · rw [hx]
      exact (f x).isIdent
    · rw [hsame]
      exact hw
  other := fun hw => rename_of_not fun h => hw h.2

/-! ## The words of a text -/

theorem pieces_ne_nil {b : UInt8} (hb : isBlank b = false) (seen : Nat) (rest : Text) :
    pieces seen (b :: rest) ≠ [] := by
  rw [pieces.eq_def]
  simp only [hb, Bool.false_eq_true, if_false]
  split
  · split <;> exact List.cons_ne_nil _ _
  · exact List.cons_ne_nil _ _

/-- The texts of the pieces are the same wherever a text stands. -/
theorem texts_pieces (text : Text) (seen seen' : Nat) :
    (pieces seen text).map Piece.text = (pieces seen' text).map Piece.text := by
  induction text generalizing seen seen' with
  | nil => rfl
  | cons b rest ih =>
    cases hb : isBlank b with
    | true =>
      rw [pieces_blank hb, pieces_blank hb]
      exact ih _ _
    | false =>
      cases rest with
      | nil =>
        rw [pieces_last hb seen (by simp), pieces_last hb seen' (by simp)]
        rfl
      | cons c rest =>
        cases hc : isBlank c with
        | true =>
          rw [pieces_last hb seen (by simp [hc]), pieces_last hb seen' (by simp [hc]),
            List.map_cons, List.map_cons, ih]
        | false =>
          have hih := ih (seen + 1) (seen' + 1)
          obtain ⟨p, ps, hps⟩ := List.exists_cons_of_ne_nil (pieces_ne_nil hc (seen + 1) rest)
          obtain ⟨q, qs, hqs⟩ := List.exists_cons_of_ne_nil (pieces_ne_nil hc (seen' + 1) rest)
          rw [hps, hqs, List.map_cons, List.map_cons, List.cons.injEq] at hih
          rw [pieces_inner hb hc hps, pieces_inner hb hc hqs, List.map_cons, List.map_cons, hih.1,
            hih.2]

/-- The words of a text. -/
def wordsOf (text : Text) : List Text := (pieces 0 text).map Piece.text

theorem wordsOf_blank {b : UInt8} (hb : isBlank b = true) (rest : Text) :
    wordsOf (b :: rest) = wordsOf rest := by
  rw [wordsOf, pieces_blank hb]
  exact texts_pieces rest _ _

theorem wordsOf_append {w rest : Text} (hne : w ≠ []) (hw : ∀ b ∈ w, isBlank b = false)
    (hrest : ∀ b ∈ rest.head?, isBlank b = true) : wordsOf (w ++ rest) = w :: wordsOf rest := by
  rw [wordsOf, pieces_append hne hw 0 hrest, List.map_cons]
  exact congrArg _ (texts_pieces rest _ _)

theorem wordsOf_dropWhile (text : Text) : wordsOf (text.dropWhile isBlank) = wordsOf text := by
  induction text with
  | nil => rfl
  | cons b rest ih =>
    rw [List.dropWhile_cons]
    split
    · next hb => rw [ih, wordsOf_blank hb]
    · rfl

/-- The words of a line are those of the text before its comment. -/
theorem texts_words (line : Text) :
    (words line).map Piece.text = wordsOf (stripComment line) :=
  wordsOf_dropWhile (stripComment line)

/-! ## Lines with other words -/

/-- The rest of a line with other texts for its words, where `word` are the bytes that stand before
the rest since the last blank. -/
def rewordFrom (texts : Text → Text) : (word rest : Text) → Text
  | word, [] => texts word
  | word, b :: rest =>
    if b = commentMark then texts word ++ b :: rest
    else if isBlank b then texts word ++ b :: rewordFrom texts [] rest
    else rewordFrom texts (word ++ [b]) rest

/-- A line with other texts for its words; its blanks and its comment stay. -/
def reword (texts : Text → Text) (line : Text) : Text := rewordFrom texts [] line

section

variable {texts : Text → Text} {word : Text}

theorem Rewording.isInner (hρ : Rewording texts) (h : ∀ b ∈ word, IsInner b) :
    ∀ b ∈ texts word, IsInner b := by
  intro b hb
  rcases hρ.mem hb with hb | hletter
  · exact h b hb
  · exact isInner_of_isAsciiLetter hletter

theorem inner_concat (h : ∀ b ∈ word, IsInner b) {b : UInt8} (hmark : ¬ b = commentMark)
    (hblank : ¬ isBlank b = true) : ∀ c ∈ word ++ [b], IsInner c := by
  intro c hc
  rcases List.mem_append.1 hc with hc | hc
  · exact h c hc
  · rw [List.mem_singleton.1 hc]
    exact ⟨by simpa using hblank, hmark⟩

theorem stripComment_append (h : ∀ b ∈ word, IsInner b) (rest : Text) :
    stripComment (word ++ rest) = word ++ stripComment rest :=
  List.takeWhile_append_of_pos fun b hb => bne_iff_ne.2 (h b hb).2

/-- A word before blanks is replaced as a whole. -/
theorem wordsOf_texts_append (hρ : Rewording texts) (hword : ∀ b ∈ word, IsInner b) {t t' : Text}
    (ht : ∀ b ∈ t.head?, isBlank b = true) (ht' : ∀ b ∈ t'.head?, isBlank b = true)
    (h : wordsOf t' = (wordsOf t).map texts) :
    wordsOf (texts word ++ t') = (wordsOf (word ++ t)).map texts := by
  by_cases hnil : word = []
  · rw [hnil, hρ.nil]
    exact h
  · have hnil' : texts word ≠ [] := mt hρ.eq_nil_iff.1 hnil
    rw [wordsOf_append hnil (fun b hb => (hword b hb).1) ht,
      wordsOf_append hnil' (fun b hb => (hρ.isInner hword b hb).1) ht', List.map_cons, h]

/-- The words of a line with other texts are the other texts of its words. -/
theorem wordsOf_rewordFrom (hρ : Rewording texts) (hword : ∀ b ∈ word, IsInner b) (rest : Text) :
    wordsOf (stripComment (rewordFrom texts word rest))
      = (wordsOf (stripComment (word ++ rest))).map texts := by
  induction rest generalizing word with
  | nil =>
    have hstrip := stripComment_append (hρ.isInner hword) []
    rw [List.append_nil] at hstrip
    rw [rewordFrom, stripComment_append hword, hstrip]
    exact wordsOf_texts_append hρ hword (by simp [stripComment]) (by simp [stripComment]) rfl
  | cons b rest ih =>
    rw [rewordFrom]
    split
    · next hb =>
      subst hb
      rw [stripComment_append hword, stripComment_append (hρ.isInner hword)]
      exact wordsOf_texts_append hρ hword (by simp [stripComment]) (by simp [stripComment]) rfl
    · next hmark =>
      have hstrip : ∀ t, stripComment (b :: t) = b :: stripComment t :=
        fun t => List.takeWhile_cons_of_pos (bne_iff_ne.2 hmark)
      split
      · next hb =>
        rw [stripComment_append hword, stripComment_append (hρ.isInner hword), hstrip, hstrip]
        refine wordsOf_texts_append hρ hword (by simp [hb]) (by simp [hb]) ?_
        rw [wordsOf_blank hb, wordsOf_blank hb]
        exact ih (by simp)
      · next hb =>
        rw [ih (inner_concat hword hmark hb), List.append_assoc, List.singleton_append]

/-- No bytes but letters come in. -/
theorem mem_rewordFrom (hρ : Rewording texts) {rest : Text} {b : UInt8}
    (h : b ∈ rewordFrom texts word rest) : b ∈ word ∨ b ∈ rest ∨ Text.isAsciiLetter b = true := by
  induction rest generalizing word with
  | nil => exact (hρ.mem h).imp_right .inr
  | cons c rest ih =>
    have hfront : b ∈ texts word → b ∈ word ∨ b ∈ c :: rest ∨ Text.isAsciiLetter b = true :=
      fun hb => (hρ.mem hb).imp_right .inr
    rw [rewordFrom] at h
    split at h
    · rcases List.mem_append.1 h with h | h
      · exact hfront h
      · exact .inr (.inl h)
    · split at h
      · rcases List.mem_append.1 h with h | h
        · exact hfront h
        · rcases List.mem_cons.1 h with rfl | h
          · exact .inr (.inl List.mem_cons_self)
          · rcases ih h with h | h | h
            · cases h
            · exact .inr (.inl (List.mem_cons_of_mem c h))
            · exact .inr (.inr h)
      · rcases ih h with h | h | h
        · rcases List.mem_append.1 h with h | h
          · exact .inl h
          · exact .inr (.inl (List.mem_singleton.1 h ▸ List.mem_cons_self))
        · exact .inr (.inl (List.mem_cons_of_mem c h))
        · exact .inr (.inr h)

/-! ## Line ends -/

/-- A blank at the end of a line stays there. -/
theorem rewordFrom_concat (hρ : Rewording texts) {b : UInt8} (hb : isBlank b = true)
    (word rest : Text) :
    rewordFrom texts word (rest ++ [b]) = rewordFrom texts word rest ++ [b] := by
  have hmark : b ≠ commentMark := by
    rintro rfl
    cases hb
  induction rest generalizing word with
  | nil =>
    simp only [List.nil_append, rewordFrom, if_neg hmark, if_pos hb, hρ.nil]
  | cons c rest ih =>
    rw [List.cons_append, rewordFrom, rewordFrom]
    split
    · rw [List.append_assoc, List.cons_append]
    · split
      · rw [ih, List.append_assoc, List.cons_append]
      · exact ih _

/-- No carriage return comes to the end of a line. -/
theorem getLast?_rewordFrom (hρ : Rewording texts) (hword : ∀ b ∈ word, IsInner b) (rest : Text)
    {b : UInt8} (hb : b ≠ Text.carriageReturn) :
    ∃ c, (rewordFrom texts word (rest ++ [b])).getLast? = some c ∧ c ≠ Text.carriageReturn := by
  induction rest generalizing word with
  | nil =>
    rw [List.nil_append, rewordFrom]
    split
    · exact ⟨b, by simp, hb⟩
    · next hmark =>
      split
      · refine ⟨b, ?_, hb⟩
        rw [rewordFrom, hρ.nil]
        simp
      · next hblank =>
        have hinner := inner_concat hword hmark hblank
        have hne : texts (word ++ [b]) ≠ [] := mt hρ.eq_nil_iff.1 (by simp)
        refine ⟨_, List.getLast?_eq_some_getLast hne, ?_⟩
        intro hlast
        have hblank := (hρ.isInner hinner _ (List.getLast_mem hne)).1
        rw [hlast] at hblank
        cases hblank
  | cons d rest ih =>
    rw [List.cons_append, rewordFrom]
    split
    · refine ⟨b, ?_, hb⟩
      rw [← List.cons_append, ← List.append_assoc, List.getLast?_concat]
    · next hmark =>
      split
      · obtain ⟨c, hc, hne⟩ := @ih [] (by simp)
        refine ⟨c, ?_, hne⟩
        rw [List.getLast?_append, List.getLast?_cons, hc]
        rfl
      · next hblank =>
        exact ih (inner_concat hword hmark hblank)

/-- A carriage return at the end of a line can be dropped before or after. -/
theorem dropLast?_reword (hρ : Rewording texts) (line : Text) :
    Text.dropLast? Text.carriageReturn (reword texts line)
      = reword texts (Text.dropLast? Text.carriageReturn line) := by
  rcases List.eq_nil_or_concat line with rfl | ⟨rest, b, rfl⟩
  · have hnil : reword texts [] = [] := hρ.nil
    have hdrop : Text.dropLast? Text.carriageReturn [] = [] := rfl
    rw [hnil, hdrop, hnil]
  · by_cases hb : b = Text.carriageReturn
    · subst hb
      have hconcat := rewordFrom_concat hρ (b := Text.carriageReturn) (by decide) [] rest
      unfold Text.dropLast? reword
      rw [List.concat_eq_append, hconcat]
      simp
    · obtain ⟨c, hc, hne⟩ := @getLast?_rewordFrom texts [] hρ (by simp) rest b hb
      unfold Text.dropLast? reword
      rw [List.concat_eq_append, hc, if_neg (by simpa using hne), if_neg (by simpa using hb)]

end

end Line

/-! ## Sources with other words -/

/-- A line with other texts for its words is read as the other texts of the words it is read as. -/
theorem Token.ofLine_reword {texts : Text → Text} (hρ : Line.Rewording texts) {line : Text}
    {n : Int} {ts : List Token} (h : ofLine line n = .ok ts) :
    ∃ ts', ofLine (Line.reword texts line) n = .ok ts' ∧
      List.Forall₂ (Token.Alike texts fun _ _ => True) ts ts' := by
  obtain ⟨hlegal, rfl⟩ := ofLine_eq_ok h
  have htexts : (Line.words (Line.reword texts line)).map Line.Piece.text
      = ((Line.words line).map Line.Piece.text).map texts := by
    rw [Line.texts_words, Line.texts_words]
    exact Line.wordsOf_rewordFrom hρ (by simp) line
  have hlegal' : ∀ p ∈ Line.words (Line.reword texts line), Line.kindOf p.text ≠ .illegal := by
    intro p hp
    have hmem : p.text ∈ ((Line.words line).map Line.Piece.text).map texts :=
      htexts ▸ List.mem_map_of_mem hp
    obtain ⟨w, hw, htext⟩ := List.mem_map.1 hmem
    obtain ⟨q, hq, rfl⟩ := List.mem_map.1 hw
    rw [← htext, hρ.kindOf]
    exact hlegal q hq
  refine ⟨_, Line.mapM_tokenOf hlegal' n _, ?_⟩
  rw [List.map_map, ← List.forall₂_eq_eq_eq, List.forall₂_map_left_iff,
    List.forall₂_map_right_iff] at htexts
  rw [List.forall₂_map_left_iff, List.forall₂_map_right_iff]
  refine (htexts.imp ?_).flip
  intro q p hqp
  refine ⟨?_, hqp, trivial⟩
  show Line.kindOf q.text = Line.kindOf p.text
  rw [hqp]
  exact hρ.kindOf p.text

namespace Program

variable {texts : Text → Text}

/-- A source with other texts for its words. -/
def rewordSource (texts : Text → Text) (src : Text) : Text :=
  Text.join [Text.lineFeed] ((Text.splitOn Text.lineFeed src).map (Line.reword texts))

/-- The lines of the source are the old lines with other texts. -/
theorem ofSource_reword (hρ : Line.Rewording texts) (src : Text) :
    ofSource (rewordSource texts src) = ⟨(ofSource src).lines.map (Line.reword texts)⟩ := by
  have hfeed : ∀ line ∈ (Text.splitOn Text.lineFeed src).map (Line.reword texts),
      Text.lineFeed ∉ line := by
    intro line hline hmem
    obtain ⟨part, hpart, rfl⟩ := List.mem_map.1 hline
    rcases Line.mem_rewordFrom hρ hmem with hnil | hmem | hletter
    · cases hnil
    · exact Text.not_mem_of_mem_splitOn hpart hmem
    · cases hletter
  unfold ofSource rewordSource
  rw [Text.splitOn_join (by simpa using Text.splitOn_ne_nil _ src) hfeed, List.map_map,
    List.map_map]
  congr 1
  exact List.map_congr_left fun part _ => Line.dropLast?_reword hρ part

/-- The words of a line of the source are the other texts of the words of the old line. -/
theorem tokens_reword (hρ : Line.Rewording texts) {src : Text} {n : Int} {ts : List Token}
    (h : (ofSource src).tokens n = .ok ts) :
    ∃ ts', (ofSource (rewordSource texts src)).tokens n = .ok ts' ∧
      List.Forall₂ (Token.Alike texts fun _ _ => True) ts ts' := by
  obtain ⟨line, hline, hread⟩ := tokens_eq_ok h
  obtain ⟨ts', hread', halike⟩ := Token.ofLine_reword hρ hread
  refine ⟨ts', ?_, halike⟩
  have hline' : (ofSource (rewordSource texts src)).line? n = some (Line.reword texts line) := by
    rw [line?] at hline ⊢
    split at hline
    · next hn =>
      rw [if_pos hn, ofSource_reword hρ, List.getElem?_map, hline]
      rfl
    · cases hline
  rw [tokens, hline']
  simp only [hread']
  rfl

theorem size_reword (hρ : Line.Rewording texts) (src : Text) :
    (ofSource (rewordSource texts src)).size = (ofSource src).size := by
  rw [ofSource_reword hρ, size, List.length_map, size]

/-- The same line, if it has words. -/
def SameRow (p : Program) (n n' : Int) : Prop :=
  n' = n ∧ ∃ head args, p.tokens n = .ok (head :: args)

/-- The rows of the source are the old rows with other texts. -/
theorem relaid_reword (hρ : Line.Rewording texts) {src : Text} (h : (ofSource src).Legible) :
    Relaid texts (ofSource src).SameRow (ofSource src) (ofSource (rewordSource texts src)) where
  legible := h
  legible' := by
    intro n hlow hup
    rw [size_reword hρ] at hup
    obtain ⟨ts, hts⟩ := h n hlow hup
    obtain ⟨ts', hts', -⟩ := tokens_reword hρ hts
    exact ⟨ts', hts'⟩
  left := fun hts => ⟨_, rfl, _, _, hts⟩
  right := by
    intro n' head' args' hts'
    obtain ⟨hlow, hup⟩ := bounds_of_tokens hts'
    rw [size_reword hρ] at hup
    obtain ⟨ts, hts⟩ := h n' hlow hup
    obtain ⟨ts', hwords, halike⟩ := tokens_reword hρ hts
    cases hts'.symm.trans hwords
    cases halike with
    | cons _ _ => exact ⟨n', rfl, _, _, hts⟩
  words := by
    rintro n _ ⟨rfl, head, args, hts⟩
    obtain ⟨ts', hts', halike⟩ := tokens_reword hρ hts
    cases halike with
    | cons hhead hargs => exact ⟨head, args, _, _, hts, hts', .cons hhead hargs⟩
  lt_iff := by
    rintro m _ n _ ⟨rfl, -⟩ ⟨rfl, -⟩
    exact Iff.rfl

end Program

end RobotMaze

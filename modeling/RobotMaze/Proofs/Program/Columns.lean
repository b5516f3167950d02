import RobotMaze.Proofs.Program.Lookup

/-!
# Columns

The pieces of a line are found by walking over its bytes, and each piece carries the column of its
first byte.  Up to the first piece that is no word, all bytes are those of words and blanks, so they
are ASCII, and bytes count as characters.

* `Line.Cut` — how a text is cut into pieces;
* `Line.StartsWord` — a word starts at a column of a line;
* `Program.Reports.startsWord` — the column of an error in a program is the start of a word.
-/

namespace RobotMaze

/-! ## ASCII -/

namespace Text

/-- A byte that is a character on its own. -/
abbrev IsAscii (b : UInt8) : Prop := b < 0x80

/-- ASCII bytes count as characters. -/
theorem length_atoms_of_isAscii {t : Text} (h : ∀ b ∈ t, IsAscii b) :
    t.atoms.length = t.length := by
  induction t with
  | nil => rfl
  | cons b t ih =>
    have hb : b < 0x80 := h b List.mem_cons_self
    have hatoms : atoms (b :: t) = .char (Char.ofNat b.toNat) :: atoms t := by
      simp only [atoms, atomsFrom, leading?, if_pos hb]
    rw [hatoms, List.length_cons, List.length_cons, ih fun c hc => h c (List.mem_cons_of_mem b hc)]

end Text

namespace Line

theorem isAscii_of_isBlank {b : UInt8} (h : isBlank b = true) : Text.IsAscii b := by
  simp only [isBlank, Bool.or_eq_true, beq_iff_eq] at h
  rcases h with ((((rfl | rfl) | rfl) | rfl) | rfl) | rfl <;> decide

theorem isAscii_of_kindOf {w : Text} (h : kindOf w ≠ .illegal) {b : UInt8} (hb : b ∈ w) :
    Text.IsAscii b := by
  rcases byte_of_kindOf h hb with hletter | ⟨k, hk, hbk⟩
  · simp only [Text.isAsciiLetter, Bool.or_eq_true, Bool.and_eq_true, decide_eq_true_eq,
      UInt8.le_iff_toNat_le] at hletter
    rw [Text.IsAscii, UInt8.lt_iff_toNat_lt]
    rcases hletter with hletter | hletter
    · exact Nat.lt_of_le_of_lt hletter.2 (by decide)
    · exact Nat.lt_of_le_of_lt hletter.2 (by decide)
  · have hall : (Kind.keywords.all fun k => k.text.all fun b => decide (b < 0x80)) = true := by
      decide
    exact of_decide_eq_true (List.all_eq_true.1 (List.all_eq_true.1 hall k hk) b hbk)

/-! ## Pieces -/

/-- A text without line feeds, `seen` bytes behind the start of its line, is cut into pieces at its
blanks. -/
inductive Cut : (seen : Nat) → Text → List Piece → Prop where
  | done (seen : Nat) : Cut seen [] []
  | blank {seen : Nat} {b : UInt8} {rest : Text} {ps : List Piece} (hb : isBlank b = true)
      (hrest : Cut (seen + 1) rest ps) : Cut seen (b :: rest) ps
  | word {seen : Nat} {w rest : Text} {ps : List Piece} (hne : w ≠ [])
      (hw : ∀ b ∈ w, isBlank b = false) (hend : ∀ b ∈ rest.head?, isBlank b = true)
      (hrest : Cut (seen + w.length) rest ps) : Cut seen (w ++ rest) (⟨w, seen + 1⟩ :: ps)

/-- The pieces of a text are those that it is cut into. -/
theorem cut_pieces {text : Text} (h : Text.lineFeed ∉ text) (seen : Nat) :
    Cut seen text (pieces seen text) := by
  induction hlength : text.length using Nat.strongRecOn generalizing text seen with
  | ind length ih =>
    cases text with
    | nil => exact .done seen
    | cons b rest =>
      subst hlength
      rw [List.mem_cons, not_or] at h
      cases hb : isBlank b with
      | true =>
        rw [pieces_blank hb, if_neg (Ne.symm h.1)]
        exact .blank hb (ih rest.length (Nat.lt_succ_self _) h.2 (seen + 1) rfl)
      | false =>
        -- the piece is all that stands before the next blank
        have hword : b :: rest = b :: rest.takeWhile (fun c => !isBlank c) ++
            rest.dropWhile (fun c => !isBlank c) := by
          rw [List.cons_append, List.takeWhile_append_dropWhile]
        have hne : b :: rest.takeWhile (fun c => !isBlank c) ≠ [] := List.cons_ne_nil _ _
        have hinner : ∀ c ∈ b :: rest.takeWhile (fun c => !isBlank c), isBlank c = false := by
          intro c hc
          rcases List.mem_cons.1 hc with rfl | hc
          · exact hb
          · simpa using List.mem_takeWhile_imp hc
        have hend : ∀ c ∈ (rest.dropWhile fun c => !isBlank c).head?, isBlank c = true := by
          intro c hc
          have hnot := List.head?_dropWhile_not (fun c => !isBlank c) rest
          rw [Option.mem_def.1 hc] at hnot
          simpa using hnot
        have hlt : (rest.dropWhile fun c => !isBlank c).length < (b :: rest).length :=
          Nat.lt_succ_of_le (List.length_dropWhile_le _ _)
        have hfeed : Text.lineFeed ∉ rest.dropWhile fun c => !isBlank c :=
          fun hmem => h.2 ((List.dropWhile_sublist _).subset hmem)
        rw [hword, pieces_append hne hinner seen hend]
        exact .word hne hinner hend (ih _ hlt hfeed _ rfl)

/-- What stands before a piece and behind it. -/
theorem Cut.split {seen : Nat} {text : Text} {ps qs : List Piece} {p : Piece}
    (h : Cut seen text (ps ++ p :: qs)) :
    ∃ before rest, text = before ++ (p.text ++ rest) ∧ p.column = seen + before.length + 1 ∧
      p.text ≠ [] ∧ (∀ b ∈ p.text, isBlank b = false) ∧
      (∀ b ∈ before.getLast?, isBlank b = true) ∧
      ∀ b ∈ before, isBlank b = true ∨ ∃ q ∈ ps, b ∈ q.text := by
  generalize hpieces : ps ++ p :: qs = pieces at h
  induction h generalizing ps with
  | done seen => simp at hpieces
  | @blank seen b rest _ hb _ ih =>
    obtain ⟨before, behind, rfl, hcolumn, hne, hinner, hlast, hbytes⟩ := ih hpieces
    refine ⟨b :: before, behind, rfl, ?_, hne, hinner, ?_, ?_⟩
    · rw [hcolumn, List.length_cons]
      omega
    · intro c hc
      cases before with
      | nil =>
        cases hc
        exact hb
      | cons d before => exact hlast c (by simpa using hc)
    · intro c hc
      rcases List.mem_cons.1 hc with rfl | hc
      · exact .inl hb
      · exact hbytes c hc
  | @word seen w rest _ hne hw hend _ ih =>
    cases ps with
    | nil =>
      cases hpieces
      exact ⟨[], rest, rfl, by simp, hne, hw, by simp, by simp⟩
    | cons q ps =>
      rw [List.cons_append, List.cons.injEq] at hpieces
      obtain ⟨rfl, hpieces⟩ := hpieces
      obtain ⟨before, behind, rfl, hcolumn, hne', hinner, hlast, hbytes⟩ := ih hpieces
      -- a blank stands between two pieces
      have hbefore : before ≠ [] := by
        rintro rfl
        obtain ⟨b, w', hb⟩ := List.exists_cons_of_ne_nil hne'
        rw [hb] at hend hinner
        have hblank : isBlank b = true := hend b rfl
        rw [hinner b List.mem_cons_self] at hblank
        cases hblank
      refine ⟨w ++ before, behind, (List.append_assoc w before _).symm, ?_, hne', hinner, ?_, ?_⟩
      · rw [hcolumn, List.length_append]
        omega
      · intro b hb
        rw [List.getLast?_append, List.getLast?_eq_some_getLast hbefore, Option.some_or,
          ← List.getLast?_eq_some_getLast hbefore] at hb
        exact hlast b hb
      · intro b hb
        rcases List.mem_append.1 hb with hb | hb
        · exact .inr ⟨_, List.mem_cons_self, hb⟩
        · refine (hbytes b hb).imp_right ?_
          rintro ⟨q, hq, hbq⟩
          exact ⟨q, List.mem_cons_of_mem _ hq, hbq⟩

/-! ## Where words start -/

/-- A run of bytes that are not blank starts at the column of the line, outside of the comment, and
the column is the same in bytes and in characters. -/
def StartsWord (line : Text) (column : Int) : Prop :=
  ∃ (before : Text) (b : UInt8) (rest : Text), line = before ++ b :: rest ∧
    column = before.length + 1 ∧ commentMark ∉ before ∧ b ≠ commentMark ∧ isBlank b = false ∧
    (∀ c ∈ before.getLast?, isBlank c = true) ∧ (∀ c ∈ before, Text.IsAscii c) ∧
    column = (Text.atoms before).length + 1

/-- A line before its comment is its blanks at the front and what its pieces are cut from. -/
theorem eq_lead_append (line : Text) :
    ∃ front body comment, line = front ++ body ++ comment ∧ commentMark ∉ front ++ body ∧
      front.length = lead line ∧ (∀ b ∈ front, isBlank b = true) ∧ words line = pieces 0 body := by
  refine ⟨(stripComment line).takeWhile isBlank, (stripComment line).dropWhile isBlank,
    line.dropWhile fun b => b != commentMark, ?_, ?_, rfl, fun b hb => List.mem_takeWhile_imp hb,
    rfl⟩
  · rw [List.takeWhile_append_dropWhile, stripComment, List.takeWhile_append_dropWhile]
  · rw [List.takeWhile_append_dropWhile, stripComment]
    intro hmem
    simpa using List.mem_takeWhile_imp hmem

/-- Pieces start where words do, up to the first piece that is none. -/
theorem startsWord_of_words {line : Text} (hline : Text.lineFeed ∉ line) {ps qs : List Piece}
    {p : Piece} (h : words line = ps ++ p :: qs) (hps : ∀ q ∈ ps, kindOf q.text ≠ .illegal) :
    StartsWord line (p.column + lead line) := by
  obtain ⟨front, body, comment, hsplit, hcomment, hlead, hfront, hwords⟩ := eq_lead_append line
  have hfeed : Text.lineFeed ∉ body := by
    intro hmem
    rw [hsplit] at hline
    exact hline (List.mem_append_left _ (List.mem_append_right _ hmem))
  have hcut := cut_pieces hfeed 0
  rw [← hwords, h] at hcut
  obtain ⟨before, behind, rfl, hcolumn, hne, hinner, hlast, hbytes⟩ := hcut.split
  obtain ⟨b, w, hb⟩ := List.exists_cons_of_ne_nil hne
  have hascii : ∀ c ∈ front ++ before, Text.IsAscii c := by
    intro c hc
    rcases List.mem_append.1 hc with hc | hc
    · exact isAscii_of_isBlank (hfront c hc)
    · rcases hbytes c hc with hblank | ⟨q, hq, hcq⟩
      · exact isAscii_of_isBlank hblank
      · exact isAscii_of_kindOf (hps q hq) hcq
  have hposition : (p.column : Int) + lead line = (front ++ before).length + 1 := by
    rw [hcolumn, ← hlead, List.length_append]
    omega
  rw [hb] at hsplit hcomment hinner
  refine ⟨front ++ before, b, w ++ behind ++ comment, ?_, hposition, ?_, ?_,
    hinner b List.mem_cons_self, ?_, hascii, ?_⟩
  · rw [hsplit]
    simp
  · intro hmem
    exact hcomment (by
      rw [← List.append_assoc]
      exact List.mem_append_left _ hmem)
  · rintro rfl
    exact hcomment (by simp)
  · intro c hc
    rw [List.getLast?_append] at hc
    cases hbefore : before.getLast? with
    | some d =>
      rw [hbefore, Option.some_or] at hc
      exact hlast c (hbefore.trans hc)
    | none =>
      rw [hbefore, Option.none_or] at hc
      exact hfront c (List.mem_of_getLast? hc)
  · rw [hposition, Text.length_atoms_of_isAscii hascii]

end Line

/-! ## Errors -/

namespace Program

variable {src : Text} {n : Int}

/-- Tokens stand where words start. -/
theorem startsWord_of_tokens {ts : List Token} (h : (ofSource src).tokens n = .ok ts) {t : Token}
    (ht : t ∈ ts) : ∃ line, (ofSource src).line? n = some line ∧ Line.StartsWord line t.column := by
  obtain ⟨line, hline, hread⟩ := tokens_eq_ok h
  obtain ⟨hwords, rfl⟩ := Token.ofLine_eq_ok hread
  obtain ⟨p, hp, rfl⟩ := List.mem_map.1 ht
  obtain ⟨ps, qs, hsplit⟩ := List.append_of_mem hp
  refine ⟨line, hline, Line.startsWord_of_words (lineFeed_not_mem hline) hsplit fun q hq => ?_⟩
  refine hwords q ?_
  rw [hsplit]
  exact List.mem_append_left _ hq

/-- **An error in a program has no column, or a word starts there.** -/
theorem Reports.startsWord {e : Error} (h : (ofSource src).Reports e) :
    e.column = 0 ∨ ∃ line, (ofSource src).line? e.line = some line ∧
      Line.StartsWord line e.column := by
  rcases h.column with hzero | hfault | ⟨ts, hts, t, ht, hcolumn⟩
  · exact .inl hzero
  · obtain ⟨line, hline, hread⟩ := tokens_eq_failed hfault
    obtain ⟨before, p, rest, hsplit, hbefore, -, herr⟩ := Token.ofLine_eq_error hread
    have hstarts := Line.startsWord_of_words (lineFeed_not_mem hline) hsplit hbefore
    rw [show (p.column : Int) + Line.lead line = e.column from by rw [herr]] at hstarts
    exact .inr ⟨line, hline, hstarts⟩
  · rw [← hcolumn]
    exact .inr (startsWord_of_tokens hts ht)

end Program

end RobotMaze

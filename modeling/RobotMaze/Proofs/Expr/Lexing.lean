import RobotMaze.Proofs.Expr.Grammar

/-!
# The rules of lexing

A line is cut at its blanks, and each piece is a keyword, a name or a fault.  The text of an
expression is taken apart by three rules instead, and the first rule that applies is followed: the
longest keyword that does not run on into a word, then a run of letters, then a run of blanks, which
is passed over.  On the tokens of a line the rules find the tokens again.

* `Lexeme.Lexes` — taking a text apart by the rules;
* `Lexeme.find?_startsWith_eq_some_iff` — the first keyword of the list is the longest one;
* `Lexeme.scan_eq_ok_iff` — a text is read as the rules say;
* `Lexeme.scan_agrees_with_tokens` — the lexemes of the tokens of a line are the tokens.
-/

namespace RobotMaze.Lexeme

variable {t w rest : Text} {k : Kind} {offset : Nat} {ls : List Lexeme}

/-- A keyword stands at the front of a text.  If it is made of word bytes, no word byte stands
behind it. -/
structure KeywordAt (t : Text) (k : Kind) : Prop where
  mem : k ∈ Kind.keywords
  starts : k.text <+: t
  boundary : (∀ b ∈ k.text, isWordByte b = true) → atBoundary (t.drop k.text.length) = true

/-- A keyword stands at the front of a text, and no longer one does. -/
def LongestAt (t : Text) (k : Kind) : Prop :=
  KeywordAt t k ∧ ∀ k', KeywordAt t k' → k'.text.length ≤ k.text.length

/-- What stands at the front of a text, before the rest, by the first rule that applies.  It is a
lexeme of the given sort, or a run of blanks. -/
inductive Stands : (front rest : Text) → (sort : Option LexemeSort) → Prop where
  | keyword {k : Kind} {rest : Text} (hlongest : LongestAt (k.text ++ rest) k) :
      Stands k.text rest (some .keyword)
  | name {w rest : Text} (hne : w ≠ []) (hkeyword : ∀ k, ¬ KeywordAt (w ++ rest) k)
      (hletters : ∀ b ∈ w, Text.isAsciiLetter b = true)
      (hend : ∀ b ∈ rest.head?, Text.isAsciiLetter b = false) : Stands w rest (some .name)
  | blanks {w rest : Text} (hne : w ≠ []) (hkeyword : ∀ k, ¬ KeywordAt (w ++ rest) k)
      (hletter : ∀ b ∈ w.head?, Text.isAsciiLetter b = false)
      (hblanks : ∀ b ∈ w, isBlank b = true) (hend : ∀ b ∈ rest.head?, isBlank b = false) :
      Stands w rest none

/-- The lexemes of a text by the rules, which pass over blanks. -/
inductive Lexes : (offset : Nat) → Text → List Lexeme → Prop where
  | done {offset : Nat} : Lexes offset [] []
  | lexeme {offset : Nat} {w rest : Text} {sort : LexemeSort} {ls : List Lexeme}
      (h : Stands w rest (some sort)) (hrest : Lexes (offset + w.length) rest ls) :
      Lexes offset (w ++ rest) (⟨sort, w, offset⟩ :: ls)
  | blanks {offset : Nat} {w rest : Text} {ls : List Lexeme} (h : Stands w rest none)
      (hrest : Lexes (offset + w.length) rest ls) : Lexes offset (w ++ rest) ls

/-! ## The longest keyword -/

theorem mem_longestFirst_iff : k ∈ longestFirst ↔ k ∈ Kind.keywords := by
  refine ⟨mem_keywords_of_mem_longestFirst, ?_⟩
  revert k
  decide

/-- No keyword of the list is longer than one before it. -/
theorem pairwise_longestFirst :
    longestFirst.Pairwise fun k k' => k'.text.length ≤ k.text.length := by
  decide

/-- All keywords but `:=` are made of word bytes. -/
theorem forall_isWordByte_iff (hk : k ∈ Kind.keywords) :
    (∀ b ∈ k.text, isWordByte b = true) ↔ k ≠ .assign := by
  have hall : ∀ k ∈ Kind.keywords, k.text.all isWordByte = !(k == .assign) := by decide
  rw [← List.all_eq_true, hall k hk, Bool.not_eq_true', beq_eq_false_iff_ne]

theorem startsWith_iff (hk : k ∈ Kind.keywords) : startsWith t k = true ↔ KeywordAt t k := by
  have hword := forall_isWordByte_iff hk
  rw [startsWith, Bool.and_eq_true, Bool.or_eq_true, List.isPrefixOf_iff_prefix, beq_iff_eq]
  constructor
  · rintro ⟨hstarts, hboundary⟩
    exact ⟨hk, hstarts, fun hbytes => hboundary.resolve_left (hword.1 hbytes)⟩
  · intro h
    refine ⟨h.starts, ?_⟩
    by_cases hassign : k = .assign
    · exact .inl hassign
    · exact .inr (h.boundary (hword.2 hassign))

theorem find?_startsWith_eq_none_iff :
    longestFirst.find? (startsWith t) = none ↔ ∀ k, ¬ KeywordAt t k := by
  rw [List.find?_eq_none]
  constructor
  · intro h k hk
    exact h k (mem_longestFirst_iff.2 hk.mem) ((startsWith_iff hk.mem).2 hk)
  · intro h k hk hstarts
    exact h k ((startsWith_iff (mem_longestFirst_iff.1 hk)).1 hstarts)

/-- Two keywords of one length at the front of a text are the same. -/
theorem KeywordAt.eq {k' : Kind} (h : KeywordAt t k) (h' : KeywordAt t k')
    (hlength : k.text.length = k'.text.length) : k = k' := by
  have htext : k.text = k'.text :=
    (List.prefix_of_prefix_length_le h.starts h'.starts hlength.le).eq_of_length hlength
  have hfound := Kind.ofWord?_text h.mem
  rw [htext, Kind.ofWord?_text h'.mem] at hfound
  exact (Option.some.inj hfound).symm

theorem longestAt_of_find? (h : longestFirst.find? (startsWith t) = some k) : LongestAt t k := by
  obtain ⟨hstarts, before, behind, hsplit, hbefore⟩ := List.find?_eq_some_iff_append.1 h
  have hmem : k ∈ Kind.keywords := by
    rw [← mem_longestFirst_iff, hsplit]
    exact List.mem_append_right before List.mem_cons_self
  refine ⟨(startsWith_iff hmem).1 hstarts, fun k' hk' => ?_⟩
  have hmem' : k' ∈ before ++ k :: behind := hsplit ▸ mem_longestFirst_iff.2 hk'.mem
  have hsorted := pairwise_longestFirst
  rw [hsplit, List.pairwise_append, List.pairwise_cons] at hsorted
  -- a keyword further up in the list would have been found, and those further down are not longer
  rcases List.mem_append.1 hmem' with hmem' | hmem'
  · have hnot := hbefore k' hmem'
    rw [(startsWith_iff hk'.mem).2 hk'] at hnot
    cases hnot
  · rcases List.mem_cons.1 hmem' with rfl | hmem'
    · exact Nat.le_refl _
    · exact hsorted.2.1.1 k' hmem'

/-- The keyword that is found first is the longest one. -/
theorem find?_startsWith_eq_some_iff :
    longestFirst.find? (startsWith t) = some k ↔ LongestAt t k := by
  refine ⟨longestAt_of_find?, ?_⟩
  rintro ⟨hat, hlongest⟩
  cases hfind : longestFirst.find? (startsWith t) with
  | none => exact absurd hat (find?_startsWith_eq_none_iff.1 hfind k)
  | some k' =>
    obtain ⟨hat', hlongest'⟩ := longestAt_of_find? hfind
    rw [hat.eq hat' (Nat.le_antisymm (hlongest' k hat) (hlongest k' hat'))]

/-! ## The front of a text -/

theorem head?_dropWhile (p : UInt8 → Bool) (t : Text) :
    ∀ b ∈ (t.dropWhile p).head?, p b = false := by
  intro b hb
  have hnot := List.head?_dropWhile_not p t
  rw [hb] at hnot
  exact hnot

theorem Stands.ne_nil {sort : Option LexemeSort} (h : Stands w rest sort) : w ≠ [] := by
  cases h with
  | keyword hlongest => exact (Line.isWord_text hlongest.1.mem).1
  | name hne _ _ _ => exact hne
  | blanks hne _ _ _ _ => exact hne

/-- What the lexer has to find where something of a sort stands. -/
def Front.ofRun (length : Nat) : Option LexemeSort → Front
  | some sort => .word sort length
  | none => .blanks length

/-- The lexer finds what stands there by the rules. -/
theorem front_of_stands {sort : Option LexemeSort} (h : Stands w rest sort) :
    front (w ++ rest) = .ofRun w.length sort := by
  unfold front
  cases h with
  | keyword hlongest =>
    rw [find?_startsWith_eq_some_iff.2 hlongest]
    rfl
  | name hne hkeyword hletters hend =>
    obtain ⟨n, hn⟩ := Nat.exists_eq_succ_of_ne_zero (mt List.length_eq_zero_iff.1 hne)
    rw [find?_startsWith_eq_none_iff.2 hkeyword, Text.takeWhile_run hletters hend, hn]
    rfl
  | blanks hne hkeyword hletter hblanks hend =>
    obtain ⟨n, hn⟩ := Nat.exists_eq_succ_of_ne_zero (mt List.length_eq_zero_iff.1 hne)
    have hletters : ([] ++ (w ++ rest)).takeWhile Text.isAsciiLetter = [] := by
      apply Text.takeWhile_run (fun _ hb => absurd hb List.not_mem_nil)
      rwa [List.head?_append_of_ne_nil _ hne]
    rw [List.nil_append] at hletters
    rw [find?_startsWith_eq_none_iff.2 hkeyword, hletters, Text.takeWhile_run hblanks hend, hn]
    rfl

theorem isAsciiLetter_of_isBlank {b : UInt8} (h : isBlank b = true) :
    Text.isAsciiLetter b = false := by
  rw [isBlank, Bool.or_eq_true, beq_iff_eq, beq_iff_eq] at h
  rcases h with rfl | rfl
  · rfl
  · rfl

/-- Where the lexer finds something, it stands there by the rules. -/
theorem exists_stands (h : front t ≠ .nothing) :
    ∃ w rest sort, t = w ++ rest ∧ Stands w rest sort := by
  cases hfind : longestFirst.find? (startsWith t) with
  | some k =>
    have hlongest := find?_startsWith_eq_some_iff.1 hfind
    obtain ⟨rest, rfl⟩ := hlongest.1.starts
    exact ⟨_, rest, _, rfl, .keyword hlongest⟩
  | none =>
    have hkeyword := find?_startsWith_eq_none_iff.1 hfind
    have hsplit : ∀ p, t = t.takeWhile p ++ t.dropWhile p := fun p =>
      List.takeWhile_append_dropWhile.symm
    by_cases hname : t.takeWhile Text.isAsciiLetter = []
    · by_cases hblanks : t.takeWhile isBlank = []
      · unfold front at h
        rw [hfind, hname, hblanks] at h
        exact absurd rfl h
      · refine ⟨_, _, none, hsplit isBlank, .blanks hblanks ?_ ?_ ?_ (head?_dropWhile _ t)⟩
        · rwa [← hsplit]
        · intro b hb
          exact isAsciiLetter_of_isBlank (List.mem_takeWhile_imp (List.mem_of_mem_head? hb))
        · intro b hb
          exact List.mem_takeWhile_imp hb
    · refine ⟨_, _, _, hsplit Text.isAsciiLetter, .name hname ?_ ?_ (head?_dropWhile _ t)⟩
      · rwa [← hsplit]
      · intro b hb
        exact List.mem_takeWhile_imp hb

/-! ## Lexemes by the rules -/

theorem Lexes.scanFrom_eq (h : Lexes offset t ls) : scanFrom offset 0 t = .ok ls := by
  induction h with
  | done => rfl
  | lexeme h _ ih =>
    rw [scanFrom_of_front_word h.ne_nil (front_of_stands h), ih]
    rfl
  | blanks h _ ih => rw [scanFrom_of_front_blanks h.ne_nil (front_of_stands h), ih]

theorem lexes_of_scanFrom (h : scanFrom offset 0 t = .ok ls) : Lexes offset t ls := by
  -- what stands at the front is never empty, so the rest is shorter than the text
  induction hlength : t.length using Nat.strong_induction_on generalizing t offset ls with
  | h n ih =>
    by_cases hnothing : front t = .nothing
    · cases t with
      | nil =>
        cases h
        exact .done
      | cons b rest =>
        rw [scanFrom, hnothing] at h
        cases h
    · obtain ⟨w, rest, sort, rfl, hstands⟩ := exists_stands hnothing
      have hshorter : rest.length < n := by
        have hpositive := List.length_pos_iff.2 hstands.ne_nil
        rw [← hlength, List.length_append]
        omega
      cases sort with
      | none =>
        rw [scanFrom_of_front_blanks hstands.ne_nil (front_of_stands hstands)] at h
        exact .blanks hstands (ih _ hshorter h rfl)
      | some sort =>
        rw [scanFrom_of_front_word hstands.ne_nil (front_of_stands hstands)] at h
        cases hread : scanFrom (offset + w.length) 0 rest with
        | error e =>
          rw [hread] at h
          cases h
        | ok ls' =>
          rw [hread] at h
          cases h
          exact .lexeme hstands (ih _ hshorter hread rfl)

/-- **A text is read as the rules say.** -/
theorem scan_eq_ok_iff : scan t = .ok ls ↔ Lexes 0 t ls :=
  ⟨lexes_of_scanFrom, Lexes.scanFrom_eq⟩

/-! ## The tokens of a line -/

/-- A lexeme is the word of a token: a name if the token is one, and else a keyword. -/
structure Agrees (t : Token) (l : Lexeme) : Prop where
  text : l.text = t.literal
  keyword : l.sort = .keyword ↔ t.kind ≠ .ident
  name : l.sort = .name ↔ t.kind = .ident

theorem agrees_ofWords {ts : List Token} (h : ∀ t ∈ ts, t.Legal) (offset : Nat) :
    List.Forall₂ Agrees ts (ofWords offset (Token.literals ts)) := by
  induction ts generalizing offset with
  | nil => exact .nil
  | cons t ts ih =>
    obtain ⟨ht, hts⟩ := List.forall_mem_cons.1 h
    refine .cons ⟨rfl, ?_, ?_⟩ (ih hts _)
    all_goals
      rw [ht.kind, sortOf]
      split
      · next hkind => simp [hkind]
      · next hkind => simp [hkind]

/-- **The two ways to take words apart agree.**  Put the tokens of a line together with single
spaces between them.  The text is taken apart by the rules without failure, into one lexeme for each
token, in order and with the same text; it is a keyword if the token is of any other kind than a
name, and a name if the token is one. -/
theorem scan_agrees_with_tokens {line : Text} {number : Int} {ts : List Token}
    (h : Token.ofLine line number = .ok ts) :
    ∃ ls, scan (Token.line ts) = .ok ls ∧ Lexes 0 (Token.line ts) ls ∧
      List.Forall₂ Agrees ts ls := by
  have hlegal := Token.legal_of_ofLine h
  have hscan : scan (Token.line ts) = .ok (ofWords 0 (Token.literals ts)) := by
    apply scan_join
    intro w hw
    obtain ⟨t, ht, rfl⟩ := List.mem_map.1 hw
    exact (hlegal t ht).isWord
  exact ⟨_, hscan, scan_eq_ok_iff.1 hscan, agrees_ofWords hlegal 0⟩

/-- Names that start like keywords, keywords that start like others, and `:=`. -/
def lookalikes : Text := utf8 "\tANDx ENDING := ORANGE OR\x0bON_KEY\r ON AND TRUEst 1 @ AND"

/-- The lexemes of the look-alikes, without their places. -/
def lookalikesRead : List (LexemeSort × Text) :=
  [(.name, "ANDx"), (.name, "ENDING"), (.keyword, ":="), (.name, "ORANGE"), (.keyword, "OR"),
    (.keyword, "ON_KEY"), (.name, "ON"), (.keyword, "AND"), (.name, "TRUEst"), (.keyword, "1")]

/-- Among the look-alikes the five keywords are read as keywords, and all others as names. -/
theorem lookalikes_scan_agrees_with_tokens :
    ∃ ts ls, Token.ofLine lookalikes 1 = .ok ts ∧ scan (Token.line ts) = .ok ls ∧
      List.Forall₂ Agrees ts ls ∧ ls.map (fun l => (l.sort, l.text)) = lookalikesRead := by
  have hread : (Token.ofLine lookalikes 1).toOption.map (fun ts =>
      (scan (Token.line ts)).toOption.map fun ls => ls.map fun l => (l.sort, l.text))
        = some (some lookalikesRead) := by decide +kernel
  cases hts : Token.ofLine lookalikes 1 with
  | error e =>
    rw [hts] at hread
    cases hread
  | ok ts =>
    obtain ⟨ls, hscan, -, hagrees⟩ := scan_agrees_with_tokens hts
    rw [hts] at hread
    simp only [Except.toOption, Option.map_some, hscan, Option.some.injEq] at hread
    exact ⟨ts, ls, rfl, hscan, hagrees, hread⟩

end RobotMaze.Lexeme

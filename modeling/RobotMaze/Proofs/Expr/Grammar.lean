import RobotMaze.Proofs.Expr.Scan

/-!
# The grammar of expressions

The tokens of an expression are put together as text and read again from its lexemes.  What comes of
it can be told from the kinds of the tokens alone: they have to form
`Term ((OR | AND | AND OR) Term)*`, where a term is a truth value, a sensor or a name.

* `Expr.Grammar` — the rows of kinds that are expressions;
* `Expr.Spelled` — the expression that a row of tokens spells, with the places of its terms;
* `Expr.ofTokens_eq_ok_iff` — the words of a line are read as the expression that they spell;
* `Expr.Chain` — expressions without places, and how they are written;
* `Expr.ofTokens_follows_grammar` — exactly the rows of the grammar are read, and what is written is
  read back.
-/

namespace RobotMaze

/-- Whether words of a kind are terms. -/
def Kind.isTerm : Kind → Bool
  | truth _ => true
  | sensor _ => true
  | ident => true
  | _ => false

/-- The ways to write a connective. -/
inductive Connective.Written : Connective → List Kind → Prop where
  | or : Written .or [.or]
  | and : Written .and [.and]
  | andOr : Written .or [.and, .or]

namespace Token

/-- The term that a token of its kind is. -/
def term? (t : Token) : Option Term :=
  match t.kind with
  | .truth _ => some (.literal t.literal)
  | .sensor _ => some (.sensor t.literal)
  | .ident => some (.name t.literal)
  | _ => none

/-- A token as it is read from a line: a word with its own kind. -/
structure Legal (t : Token) : Prop where
  isWord : Line.IsWord t.literal
  kind : t.kind = Line.kindOf t.literal

/-- The bytes that tokens take up with a space behind each. -/
def span : List Token → Nat
  | [] => 0
  | t :: ts => t.literal.length + 1 + span ts

end Token

namespace Expr

/-! ## Rows of kinds and of tokens -/

/-- The kinds of `((OR | AND | AND OR) Term)*`. -/
inductive LinkGrammar : List Kind → Prop where
  | nil : LinkGrammar []
  | cons {c : Connective} {operator : List Kind} {k : Kind} {rest : List Kind}
      (hoperator : c.Written operator) (hk : k.isTerm = true) (hrest : LinkGrammar rest) :
      LinkGrammar (operator ++ k :: rest)

/-- The kinds of `Term ((OR | AND | AND OR) Term)*`. -/
inductive Grammar : List Kind → Prop where
  | term {k : Kind} {rest : List Kind} (hk : k.isTerm = true) (hrest : LinkGrammar rest) :
      Grammar (k :: rest)

/-- The links that tokens spell behind the tokens `before`.  A term stands behind the text of all
tokens before it and a space. -/
inductive LinksSpelled : (before : List Token) → List Token → List (Connective × Operand) → Prop
  | nil {before : List Token} : LinksSpelled before [] []
  | cons {before operator rest : List Token} {t : Token} {c : Connective} {term : Term}
      {tail : List (Connective × Operand)} (hoperator : c.Written (operator.map Token.kind))
      (hterm : t.term? = some term) (hrest : LinksSpelled (before ++ operator ++ [t]) rest tail) :
      LinksSpelled before (operator ++ t :: rest)
        ((c, ⟨term, (Token.line (before ++ operator)).length + 1⟩) :: tail)

/-- The expression that tokens spell. -/
inductive Spelled : List Token → Expr → Prop where
  | chain {t : Token} {rest : List Token} {term : Term} {tail : List (Connective × Operand)}
      (hterm : t.term? = some term) (hrest : LinksSpelled [t] rest tail) :
      Spelled (t :: rest) ⟨⟨term, 0⟩, tail⟩

end Expr

/-! ## Tokens of a line -/

namespace Token

theorem isSome_term? (t : Token) : t.term?.isSome = t.kind.isTerm := by
  unfold term? Kind.isTerm
  cases t.kind <;> rfl

theorem span_singleton (t : Token) : span [t] = t.literal.length + 1 := rfl

theorem span_append (ts us : List Token) : span (ts ++ us) = span ts + span us := by
  induction ts with
  | nil => rw [List.nil_append, span, Nat.zero_add]
  | cons t ts ih =>
    rw [List.cons_append, span, span, ih]
    omega

/-- There is no space behind the last token. -/
theorem length_line {ts : List Token} (h : ts ≠ []) : (Token.line ts).length + 1 = span ts := by
  unfold Token.line
  induction ts with
  | nil => exact absurd rfl h
  | cons t ts ih =>
    cases ts with
    | nil => exact (span_singleton t).symm
    | cons u us =>
      have hrest := ih (List.cons_ne_nil u us)
      have hspan : span (t :: u :: us) = span [t] + span (u :: us) := span_append [t] (u :: us)
      rw [hspan, span_singleton, ← hrest]
      show (Text.join [Text.space] (t.literal :: u.literal :: literals us)).length + 1 = _
      rw [Text.join_cons_cons]
      simp only [List.length_append, List.length_singleton, literals, List.map_cons]
      omega

theorem legal_of_ofLine {line : Text} {number : Int} {ts : List Token}
    (h : ofLine line number = .ok ts) : ∀ t ∈ ts, t.Legal := by
  obtain ⟨hwords, rfl⟩ := ofLine_eq_ok h
  intro t ht
  obtain ⟨piece, hpiece, rfl⟩ := List.mem_map.1 ht
  exact ⟨⟨Line.text_ne_nil_of_mem_pieces hpiece, hwords piece hpiece⟩, rfl⟩

/-- A token of a line has the word of a keyword if it is of that kind. -/
theorem Legal.literal_eq_iff {t : Token} (h : t.Legal) {k : Kind} (hk : k ∈ Kind.keywords) :
    t.literal = k.text ↔ t.kind = k := by
  rw [h.kind]
  constructor
  · intro htext
    rw [htext, Line.kindOf_text hk]
  · intro hkind
    exact Line.text_of_kindOf hkind hk

/-- The lexeme of a token of a line stands for the term of its kind. -/
theorem Legal.operand? {t : Token} (h : t.Legal) (offset : Nat) :
    Expr.operand? ⟨Lexeme.sortOf t.literal, t.literal, offset⟩
      = t.term?.map fun term => ⟨term, offset⟩ := by
  unfold Expr.operand? term? Lexeme.sortOf
  rw [h.kind]
  rcases Line.keyword_or_name h.isWord.2 with ⟨k, hk, htext⟩ | ⟨hword, hkind, -⟩
  · rw [htext, Kind.ofWord?_text hk, Line.kindOf_text hk]
    cases k with
    | truth value => rfl
    | sensor sensor => rfl
    | ident => exact absurd hk (by decide)
    | _ => rfl
  · rw [hword, hkind]
    rfl

end Token

namespace Expr

variable {ts : List Token} {tail : List (Connective × Operand)}

/-! ## Reading links -/

/-- The lexemes of tokens with single spaces between them. -/
abbrev lexemes (offset : Nat) (ts : List Token) : List Lexeme :=
  Lexeme.ofWords offset (Token.literals ts)

theorem lexemes_cons (offset : Nat) (t : Token) (ts : List Token) :
    lexemes offset (t :: ts) = ⟨Lexeme.sortOf t.literal, t.literal, offset⟩ ::
      lexemes (offset + Token.span [t]) ts := by
  rw [Token.span_singleton, ← Nat.add_assoc]
  rfl

/-- What links are read together with the part of an operator that was read before. -/
def Completes (before : List Token) (ts : List Token) (tail : List (Connective × Operand)) :
    Expecting → Prop
  | .operator => LinksSpelled before ts tail
  | .afterAnd => ∀ front t, before = front ++ [t] → t.kind = .and →
      LinksSpelled front (t :: ts) tail
  | .operand c => ∀ front operator, before = front ++ operator →
      c.Written (operator.map Token.kind) → LinksSpelled front (operator ++ ts) tail

/-- A term behind a whole operator completes a link. -/
theorem completes_operand {before : List Token} {t : Token} {c : Connective} {term : Term}
    (hterm : t.term? = some term) (htail : LinksSpelled (before ++ [t]) ts tail) :
    Completes before (t :: ts) ((c, ⟨term, Token.span before⟩) :: tail) (.operand c) := by
  rintro front operator rfl hoperator
  have hne : front ++ operator ≠ [] := by
    intro hnil
    obtain rfl := (List.append_eq_nil_iff.1 hnil).2
    cases hoperator
  rw [← Token.length_line hne]
  exact .cons hoperator hterm htail

/-- What is read from lexemes is spelled by their tokens. -/
theorem completes_of_parseTail {state : Expecting} {before : List Token}
    (hts : ∀ t ∈ ts, t.Legal)
    (h : parseTail state (lexemes (Token.span before) ts) = .ok tail) :
    Completes before ts tail state := by
  induction ts generalizing state before tail with
  | nil =>
    cases state with
    | operator =>
      cases h
      exact .nil
    | afterAnd => cases h
    | operand c => cases h
  | cons t ts ih =>
    obtain ⟨ht, hrest⟩ := List.forall_mem_cons.1 hts
    rw [lexemes_cons, ← Token.span_append] at h
    -- wherever the reader takes a term, the rest is read behind an operator
    have hterm : ∀ {c : Connective} {o : Operand},
        operand? ⟨Lexeme.sortOf t.literal, t.literal, Token.span before⟩ = some o →
        (parseTail .operator (lexemes (Token.span (before ++ [t])) ts)).map ((c, o) :: ·)
          = .ok tail →
        Completes before (t :: ts) tail (.operand c) := by
      intro c o ho htail
      rw [ht.operand?] at ho
      obtain ⟨term, hterm, rfl⟩ := Option.map_eq_some_iff.1 ho
      cases hread : parseTail .operator (lexemes (Token.span (before ++ [t])) ts) with
      | error problem =>
        rw [hread] at htail
        cases htail
      | ok links =>
        rw [hread] at htail
        cases htail
        exact completes_operand hterm (ih hrest hread)
    cases state with
    | operator =>
      simp only [parseTail, ht.literal_eq_iff (k := .or) (by decide),
        ht.literal_eq_iff (k := .and) (by decide)] at h
      split at h
      · next hor =>
        refine ih hrest h before [t] rfl ?_
        rw [List.map_singleton, hor]
        exact .or
      · split at h
        · next hand => exact ih hrest h before t rfl hand
        · cases h
    | afterAnd =>
      simp only [parseTail, ht.literal_eq_iff (k := .or) (by decide)] at h
      rintro front u rfl hu
      split at h
      · next hor =>
        refine ih hrest h front [u, t] (by simp) ?_
        rw [List.map_cons, List.map_singleton, hu, hor]
        exact .andOr
      · split at h
        · next o ho =>
          refine hterm ho h front [u] rfl ?_
          rw [List.map_singleton, hu]
          exact .and
        · cases h
    | operand c =>
      simp only [parseTail] at h
      split at h
      · next o ho => exact hterm ho h
      · cases h

/-- Behind an operator a term is expected. -/
theorem parseTail_operator {operator rest : List Token} {t : Token} {c : Connective}
    (hoperator : c.Written (operator.map Token.kind)) (hlegal : ∀ o ∈ operator, o.Legal)
    (ht : t.Legal) (hne : t.kind ≠ .or) (offset : Nat) :
    parseTail .operator (lexemes offset (operator ++ t :: rest))
      = parseTail (.operand c) (lexemes (offset + Token.span operator) (t :: rest)) := by
  have htext : t.literal ≠ Kind.or.text := mt (ht.literal_eq_iff (by decide)).1 hne
  have hother : Kind.and.text ≠ Kind.or.text := by decide
  generalize hkinds : operator.map Token.kind = kinds at hoperator
  cases hoperator with
  | or =>
    obtain ⟨o, rfl, ho⟩ := List.map_eq_singleton_iff.1 hkinds
    have hor := ((hlegal o (by simp)).literal_eq_iff (k := .or) (by decide)).2 ho
    rw [List.singleton_append, lexemes_cons, parseTail, if_pos hor]
  | and =>
    obtain ⟨o, rfl, ho⟩ := List.map_eq_singleton_iff.1 hkinds
    have hand := ((hlegal o (by simp)).literal_eq_iff (k := .and) (by decide)).2 ho
    rw [List.singleton_append, lexemes_cons, parseTail, hand, if_neg hother, if_pos rfl,
      lexemes_cons, parseTail, parseTail, if_neg htext]
  | andOr =>
    obtain ⟨o, os, rfl, ho, hos⟩ := List.map_eq_cons_iff.1 hkinds
    obtain ⟨o', rfl, ho'⟩ := List.map_eq_singleton_iff.1 hos
    have hand := ((hlegal o (by simp)).literal_eq_iff (k := .and) (by decide)).2 ho
    have hor := ((hlegal o' (by simp)).literal_eq_iff (k := .or) (by decide)).2 ho'
    have hspan : Token.span [o, o'] = Token.span [o] + Token.span [o'] := Token.span_append [o] [o']
    rw [List.cons_append, lexemes_cons, parseTail, hand, if_neg hother, if_pos rfl,
      List.singleton_append, lexemes_cons, parseTail, if_pos hor, hspan, Nat.add_assoc]

/-- What tokens spell is read from their lexemes. -/
theorem parseTail_of_spelled {before : List Token} (hbefore : before ≠ [])
    (hts : ∀ t ∈ ts, t.Legal) (h : LinksSpelled before ts tail) :
    parseTail .operator (lexemes (Token.span before) ts) = .ok tail := by
  induction h with
  | nil => rfl
  | @cons before operator rest t c term tail hoperator hterm hrest ih =>
    have hne : before ++ operator ≠ [] := by simp [hbefore]
    obtain ⟨hlegal, ht, hlegal'⟩ := by simpa [or_imp, forall_and] using hts
    have hor : t.kind ≠ .or := by
      intro hkind
      rw [Token.term?, hkind] at hterm
      cases hterm
    rw [parseTail_operator hoperator hlegal ht hor, ← Token.span_append, lexemes_cons,
      ← Token.span_append, parseTail, ht.operand?, hterm, ih (by simp) hlegal',
      Token.length_line hne]
    rfl

/-! ## Reading expressions -/

theorem ofLexemes_eq_ok_iff {t : Token} (ht : t.Legal) (hts : ∀ t ∈ ts, t.Legal) {e : Expr} :
    ofLexemes (lexemes 0 (t :: ts)) = .ok e ↔ Spelled (t :: ts) e := by
  have hrest : lexemes (0 + Token.span [t]) ts = lexemes (Token.span [t]) ts := by
    rw [Nat.zero_add]
  constructor
  · intro h
    rw [lexemes_cons, ofLexemes, ht.operand?, hrest] at h
    cases hterm : t.term? with
    | none =>
      rw [hterm] at h
      cases h
    | some term =>
      rw [hterm] at h
      cases hread : parseTail .operator (lexemes (Token.span [t]) ts) with
      | error problem =>
        rw [hread] at h
        cases h
      | ok tail =>
        rw [hread] at h
        cases h
        exact .chain hterm (completes_of_parseTail hts hread)
  · rintro ⟨hterm, htail⟩
    rw [lexemes_cons, ofLexemes, ht.operand?, hterm, hrest,
      parseTail_of_spelled (List.cons_ne_nil t []) hts htail]
    rfl

/-- **The words of a line are read as the expression that they spell.** -/
theorem ofTokens_eq_ok_iff {us : List Token} (hus : ∀ t ∈ us, t.Legal) {line : Int} {e : Expr} :
    ofTokens us line = .ok e ↔ Spelled us e := by
  cases us with
  | nil =>
    constructor
    · intro h
      cases h
    · intro h
      cases h
  | cons t ts =>
    obtain ⟨ht, hts⟩ := List.forall_mem_cons.1 hus
    have hwords : ∀ w ∈ Token.literals (t :: ts), Line.IsWord w := by
      intro w hw
      obtain ⟨u, hu, rfl⟩ := List.mem_map.1 hw
      exact (hus u hu).isWord
    have hread : ofText (Token.line (t :: ts)) = ofLexemes (lexemes 0 (t :: ts)) := by
      rw [ofText, Token.line, Lexeme.scan_join hwords]
      rfl
    rw [← ofLexemes_eq_ok_iff ht hts, ← hread, ofTokens]
    cases ofText (Token.line (t :: ts)) with
    | ok e' => simp
    | error problem => simp

/-- Whether tokens spell links can be told from their kinds. -/
theorem linkGrammar_iff {before : List Token} :
    LinkGrammar (ts.map Token.kind) ↔ ∃ tail, LinksSpelled before ts tail := by
  constructor
  · generalize hkinds : ts.map Token.kind = kinds
    intro h
    induction h generalizing ts before with
    | nil =>
      rw [List.map_eq_nil_iff.1 hkinds]
      exact ⟨[], .nil⟩
    | cons hoperator hk _ ih =>
      obtain ⟨operator, us, rfl, rfl, hus⟩ := List.map_eq_append_iff.1 hkinds
      obtain ⟨t, rest, rfl, rfl, hrest⟩ := List.map_eq_cons_iff.1 hus
      rw [← Token.isSome_term?] at hk
      obtain ⟨term, hterm⟩ := Option.isSome_iff_exists.1 hk
      obtain ⟨tail, htail⟩ := ih hrest
      exact ⟨_, .cons hoperator hterm htail⟩
  · rintro ⟨tail, h⟩
    induction h with
    | nil => exact .nil
    | cons hoperator hterm _ ih =>
      rw [List.map_append, List.map_cons]
      refine .cons hoperator ?_ ih
      rw [← Token.isSome_term?, hterm]
      rfl

/-- Whether tokens spell an expression can be told from their kinds. -/
theorem grammar_iff : Grammar (ts.map Token.kind) ↔ ∃ e, Spelled ts e := by
  constructor
  · generalize hkinds : ts.map Token.kind = kinds
    rintro ⟨hk, hrest⟩
    obtain ⟨t, rest, rfl, rfl, rfl⟩ := List.map_eq_cons_iff.1 hkinds
    rw [← Token.isSome_term?] at hk
    obtain ⟨term, hterm⟩ := Option.isSome_iff_exists.1 hk
    obtain ⟨tail, htail⟩ := linkGrammar_iff.1 hrest
    exact ⟨_, .chain hterm htail⟩
  · rintro ⟨e, hterm, htail⟩
    refine .term ?_ (linkGrammar_iff.2 ⟨_, htail⟩)
    rw [← Token.isSome_term?, hterm]
    rfl

/-! ## Writing expressions -/

end Expr

namespace Term

/-- The word of a term. -/
def word : Term → Text
  | literal word => word
  | sensor word => word
  | name word => word
  | blank => []

/-- A term that is written as a word of its own class. -/
def Writable : Term → Prop
  | literal word => ∃ value, word = (Kind.truth value).text
  | sensor word => ∃ sensor, word = (Kind.sensor sensor).text
  | name word => word ≠ [] ∧ Line.kindOf word = .ident
  | blank => False

/-- A token with the word of a term stands for the term. -/
theorem Writable.term? {term : Term} (h : term.Writable) {t : Token} (hword : t.literal = term.word)
    (hkind : t.kind = Line.kindOf t.literal) : t.term? = some term := by
  unfold Token.term?
  rw [hkind, hword]
  cases term with
  | literal word =>
    obtain ⟨value, rfl⟩ := h
    rw [word, Line.kindOf_text (by cases value <;> decide)]
  | sensor word =>
    obtain ⟨sensor, rfl⟩ := h
    rw [word, Line.kindOf_text (by cases sensor <;> decide)]
  | name word =>
    rw [Term.word, h.2]
  | blank => exact h.elim

theorem Writable.isWord {term : Term} (h : term.Writable) : Line.IsWord term.word := by
  cases term with
  | literal word =>
    obtain ⟨value, rfl⟩ := h
    exact Line.isWord_text (by cases value <;> decide)
  | sensor word =>
    obtain ⟨sensor, rfl⟩ := h
    exact Line.isWord_text (by cases sensor <;> decide)
  | name word =>
    refine ⟨h.1, ?_⟩
    rw [Term.word, h.2]
    decide
  | blank => exact h.elim

end Term

/-- The keyword of a connective. -/
def Connective.kind : Connective → Kind
  | and => .and
  | or => .or

namespace Expr

/-- An expression without the places of its terms. -/
structure Chain where
  head : Term
  tail : List (Connective × Term)
  deriving DecidableEq, Repr

/-- The terms and connectives of an expression. -/
def chain (e : Expr) : Chain := ⟨e.head.term, e.tail.map fun link => (link.1, link.2.term)⟩

namespace Chain

/-- The words of links. -/
def linkWords (links : List (Connective × Term)) : List Text :=
  links.flatMap fun link => [link.1.kind.text, link.2.word]

/-- The words of a chain. -/
def words (c : Chain) : List Text := c.head.word :: linkWords c.tail

/-- A chain as it is written. -/
def text (c : Chain) : Text := Text.join [Text.space] c.words

/-- All terms of a chain can be written. -/
structure Writable (c : Chain) : Prop where
  head : c.head.Writable
  tail : ∀ link ∈ c.tail, link.2.Writable

theorem Writable.isWord {c : Chain} (h : c.Writable) : ∀ w ∈ c.words, Line.IsWord w := by
  intro w hw
  rcases List.mem_cons.1 hw with rfl | hw
  · exact h.head.isWord
  · obtain ⟨link, hlink, hw⟩ := List.mem_flatMap.1 hw
    rcases List.mem_cons.1 hw with rfl | hw
    · exact Line.isWord_text (by cases link.1 <;> decide)
    · rw [List.mem_singleton.1 hw]
      exact (h.tail link hlink).isWord

/-- The words of links spell them. -/
theorem spelled_linkWords {links : List (Connective × Term)}
    (hlinks : ∀ link ∈ links, link.2.Writable) {ts : List Token}
    (hwords : Token.literals ts = linkWords links)
    (hkinds : ∀ t ∈ ts, t.kind = Line.kindOf t.literal) (before : List Token) :
    ∃ tail, LinksSpelled before ts tail ∧
      tail.map (fun link => (link.1, link.2.term)) = links := by
  induction links generalizing before ts with
  | nil =>
    rw [List.map_eq_nil_iff.1 hwords]
    exact ⟨[], .nil, rfl⟩
  | cons link links ih =>
    obtain ⟨c, term⟩ := link
    obtain ⟨hterm, hrest⟩ := List.forall_mem_cons.1 hlinks
    obtain ⟨o, us, rfl, ho, hus⟩ := List.map_eq_cons_iff.1 hwords
    obtain ⟨t, rest, rfl, ht, hwords'⟩ := List.map_eq_cons_iff.1 hus
    obtain ⟨hkindO, hkindT, hkinds'⟩ :
        o.kind = Line.kindOf o.literal ∧ t.kind = Line.kindOf t.literal ∧
          ∀ u ∈ rest, u.kind = Line.kindOf u.literal := by
      simpa [or_imp, forall_and] using hkinds
    have hoperator : c.Written ([o].map Token.kind) := by
      rw [List.map_singleton, hkindO, ho]
      cases c with
      | and => exact .and
      | or => exact .or
    obtain ⟨tail, htail, hmap⟩ := ih hrest hwords' hkinds' (before ++ [o] ++ [t])
    exact ⟨_, .cons hoperator (hterm.term? ht hkindT) htail, by rw [List.map_cons, hmap]⟩

/-- A chain that is written on a line is read back. -/
theorem Writable.read_back {c : Chain} (h : c.Writable) (number line : Int) :
    ∃ ts e, Token.ofLine c.text number = .ok ts ∧ ofTokens ts line = .ok e ∧ e.chain = c := by
  obtain ⟨ts, hread, hwords, hkinds⟩ := Token.ofLine_join h.isWord number
  obtain ⟨t, rest, rfl, ht, hrest⟩ := List.map_eq_cons_iff.1 hwords
  obtain ⟨hkind, hkinds'⟩ := List.forall_mem_cons.1 hkinds
  obtain ⟨tail, htail, hmap⟩ := spelled_linkWords h.tail hrest hkinds' [t]
  refine ⟨t :: rest, ⟨⟨c.head, 0⟩, tail⟩, hread, ?_, ?_⟩
  · rw [ofTokens_eq_ok_iff (Token.legal_of_ofLine hread)]
    exact .chain (h.head.term? ht hkind) htail
  · rw [chain, hmap]

end Chain

/-- **Expressions follow their grammar.**  A row of tokens at the end of a line is read as an
expression exactly if its kinds form `Term ((OR | AND | AND OR) Term)*`, and then it is read as the
expression that it spells; if they do not, the source is at fault, at the first token.  A chain of
terms that is written on a line is read back. -/
theorem ofTokens_follows_grammar {text : Text} {number : Int} {ts us : List Token}
    (hread : Token.ofLine text number = .ok ts) (hsuffix : us <:+ ts) (hne : us ≠ [])
    (line : Int) :
    ((∃ e, ofTokens us line = .ok e) ↔ Grammar (us.map Token.kind)) ∧
      (∀ e, ofTokens us line = .ok e → Spelled us e) ∧
      (¬ Grammar (us.map Token.kind) → ∃ fault, fault.origin = .source ∧
        ofTokens us line = .error ⟨fault, line, (us.head hne).column⟩) ∧
      ∀ c : Chain, c.Writable → ∀ number' line', ∃ ts' e,
        Token.ofLine c.text number' = .ok ts' ∧ ofTokens ts' line' = .ok e ∧ e.chain = c := by
  have hlegal : ∀ t ∈ us, t.Legal := fun t ht =>
    Token.legal_of_ofLine hread t (hsuffix.subset ht)
  have haccepts : (∃ e, ofTokens us line = .ok e) ↔ Grammar (us.map Token.kind) := by
    rw [grammar_iff]
    exact exists_congr fun e => ofTokens_eq_ok_iff hlegal
  refine ⟨haccepts, fun e => (ofTokens_eq_ok_iff hlegal).1, ?_,
    fun c hc number' line' => hc.read_back number' line'⟩
  intro hgrammar
  cases us with
  | nil => exact absurd rfl hne
  | cons first rest =>
    rw [ofTokens] at haccepts ⊢
    cases hparse : ofText (Token.line (first :: rest)) with
    | ok e =>
      simp only [hparse] at haccepts
      exact absurd (haccepts.1 ⟨e, rfl⟩) hgrammar
    | error problem => exact ⟨_, rfl, rfl⟩

/-- The tokens of an assignment whose right-hand side uses all three operators. -/
def mixedTokens : List Token :=
  [⟨.ident, "go", 1⟩, ⟨.assign, ":=", 4⟩, ⟨.ident, "a", 7⟩, ⟨.and, "AND", 9⟩, ⟨.or, "OR", 13⟩,
    ⟨.truth true, "TRUE", 16⟩, ⟨.and, "AND", 21⟩, ⟨.sensor .onKey, "ON_KEY", 25⟩, ⟨.or, "OR", 32⟩,
    ⟨.ident, "b", 35⟩]

/-- The right-hand side of the assignment is in the grammar and spells a chain of four terms. -/
theorem mixed_follows_grammar :
    Token.ofLine "go := a AND OR TRUE AND ON_KEY OR b" 7 = .ok mixedTokens ∧
      Grammar ((mixedTokens.drop 2).map Token.kind) ∧
      Spelled (mixedTokens.drop 2) ⟨⟨.name "a", 0⟩, [(.or, ⟨.literal "TRUE", 9⟩),
        (.and, ⟨.sensor "ON_KEY", 18⟩), (.or, ⟨.name "b", 28⟩)]⟩ := by
  have hread : Token.ofLine "go := a AND OR TRUE AND ON_KEY OR b" 7 = .ok mixedTokens := by
    decide +kernel
  have hparse : ofTokens (mixedTokens.drop 2) 7 = .ok ⟨⟨.name "a", 0⟩, [(.or, ⟨.literal "TRUE", 9⟩),
      (.and, ⟨.sensor "ON_KEY", 18⟩), (.or, ⟨.name "b", 28⟩)]⟩ := by
    decide +kernel
  obtain ⟨haccepts, hspelled, -⟩ :=
    ofTokens_follows_grammar hread (List.drop_suffix 2 mixedTokens) (by decide) 7
  exact ⟨hread, haccepts.1 ⟨_, hparse⟩, hspelled _ hparse⟩

end Expr

end RobotMaze

import RobotMaze.Diagnostic.Snippet
import RobotMaze.Proofs.Text.Lines

/-!
# Where the caret stands

A snippet shows the line of its diagnostic behind a gutter with the line number, and a caret in the
row below.  The gutter of the source line is filled up to four digits and grows with the number; the
gutter of the caret does not.  So the caret stands under its column up to line 9999, and to the left
of it from line 10000 on.

* `Diagnostic.snippet_eq` — the rows of a snippet;
* `Diagnostic.exists_shows` — the source line and the row of the caret among them;
* `Diagnostic.caret_under_column_iff` — where the caret stands under the column.
-/

namespace RobotMaze

open Text

namespace Snippet

/-- The byte of a caret. -/
def caret : UInt8 := 94

/-- What stands before a line of source: its number and a bar. -/
def gutter (n : Nat) : Text := padded 4 n ++ " | "

/-- The line with the given number, behind its gutter. -/
def sourceRow (src : Text) (n : Nat) : Text := gutter n ++ (lines src).getD (n - 1) []

/-- The row of a caret under a column. -/
def caretRow (column : Nat) : Text := "     | " ++ List.replicate (column - 1) space ++ "^"

/-- The rows around line `n`, with a caret under that line. -/
def rowsAround (src : Text) (n column : Nat) : List Text :=
  (if 1 < n then [sourceRow src (n - 1)] else [])
    ++ [sourceRow src n, caretRow column]
    ++ (if n < (lines src).length then [sourceRow src (n + 1)] else [])

theorem numbered_eq (src : Text) (n : Nat) :
    numbered n ((lines src).getD (n - 1) []) = inLines [sourceRow src n] := by
  rw [inLines_cons, numbered, sourceRow, gutter]
  simp only [List.append_assoc]
  rfl

/-- A text without carriage returns is read as it is. -/
theorem dropReturns_of_not_mem {t : Text} (h : carriageReturn ∉ t) : dropReturns t = t := by
  fun_induction dropReturns t with
  | case1 => rfl
  | case2 b => rfl
  | case3 b c rest hbreak ih => exact absurd (hbreak.1 ▸ List.mem_cons_self) h
  | case4 b c rest _ ih => rw [ih fun hmem => h (List.mem_cons_of_mem b hmem)]

theorem inLines_if (p : Prop) [Decidable p] (row : Text) :
    (if p then inLines [row] else []) = inLines (if p then [row] else []) := by
  split
  · rfl
  · rfl

theorem lineFeed_not_mem_gutter (n : Nat) : lineFeed ∉ gutter n := by
  rw [gutter, List.mem_append, not_or]
  exact ⟨lineFeed_not_mem_padded 4 n, by decide⟩

theorem lineFeed_not_mem_sourceRow (src : Text) (n : Nat) : lineFeed ∉ sourceRow src n := by
  rw [sourceRow, List.mem_append, not_or]
  refine ⟨lineFeed_not_mem_gutter n, ?_⟩
  rw [List.getD_eq_getElem?_getD]
  cases hline : (lines src)[n - 1]? with
  | none => exact List.not_mem_nil
  | some line => exact not_mem_of_mem_splitOn (List.mem_of_getElem? hline)

theorem lineFeed_not_mem_caretRow (column : Nat) : lineFeed ∉ caretRow column := by
  have hgutter : lineFeed ∉ utf8 "     | " := by decide
  have hcaret : lineFeed ∉ utf8 "^" := by decide
  have hspaces : lineFeed ∉ List.replicate (column - 1) space := by
    intro h
    cases (List.mem_replicate.1 h).2
  rw [caretRow, List.mem_append, List.mem_append, not_or, not_or]
  exact ⟨⟨hgutter, hspaces⟩, hcaret⟩

theorem lineFeed_not_mem_rowsAround (src : Text) (n column : Nat) :
    ∀ row ∈ rowsAround src n column, lineFeed ∉ row := by
  intro row hrow
  have hsource := lineFeed_not_mem_sourceRow src
  have hcaret := lineFeed_not_mem_caretRow column
  simp only [rowsAround, List.mem_append, List.mem_cons, List.mem_ite_nil_right, List.not_mem_nil,
    or_false] at hrow
  rcases hrow with (⟨-, rfl⟩ | rfl | rfl) | ⟨-, rfl⟩
  · exact hsource _
  · exact hsource _
  · exact hcaret
  · exact hsource _

theorem length_gutter (n : Nat) : (gutter n).length = max 4 (ofNat n).length + 3 := by
  rw [gutter, List.length_append, length_padded]
  rfl

/-- The gutter is as wide as that of the caret exactly up to line 9999. -/
theorem length_gutter_eq_iff (n : Nat) : (gutter n).length = 7 ↔ n ≤ 9999 := by
  have hdigits : (ofNat n).length ≤ 4 ↔ n < 10 ^ 4 := length_ofNat_le_iff (by decide)
  rw [length_gutter]
  omega

theorem count_caretRow (column : Nat) : (caretRow column).count caret = 1 := by
  rw [caretRow, List.count_append, List.count_append, List.count_replicate]
  rfl

theorem idxOf_caretRow (column : Nat) : (caretRow column).idxOf caret = 7 + (column - 1) := by
  have hgutter : caret ∉ utf8 "     | " := by decide
  have hspaces : caret ∉ List.replicate (column - 1) space := by
    intro h
    cases (List.mem_replicate.1 h).2
  have hcaret : (utf8 "^").idxOf caret = 0 := by decide
  rw [caretRow, List.append_assoc, List.idxOf_append, if_neg hgutter, List.idxOf_append,
    if_neg hspaces, List.length_replicate, hcaret, Nat.zero_add, Nat.add_comm]
  rfl

end Snippet

namespace Diagnostic

/-- The rows that a snippet shows. -/
def shown (d : Diagnostic) (src : Text) : List Text := splitOn lineFeed (d.snippet src)

/-- The row of the source line: the text comes first, then an empty row, then the line before. -/
def row (d : Diagnostic) : Nat := d.text.count lineFeed + 2 + (if 1 < d.line then 1 else 0)

/-- A diagnostic shows a line of the source behind a gutter, and the row with the caret under it. -/
structure Shows (d : Diagnostic) (src gutter line under : Text) : Prop where
  line_eq : (Snippet.lines src)[(d.line - 1).toNat]? = some line
  above : (d.shown src)[d.row]? = some (gutter ++ line)
  below : (d.shown src)[d.row + 1]? = some under
  caret : under.count Snippet.caret = 1

theorem snippet_eq {d : Diagnostic} {src : Text} {n : Nat} (hn : d.line = n) (hlow : 1 ≤ n)
    (hup : n ≤ (Snippet.lines src).length) :
    d.snippet src = d.text ++ lineFeed :: inLines ([] :: Snippet.rowsAround src n
      (Snippet.caretColumn ((Snippet.lines src).getD (n - 1) []) d.column)) := by
  have hnumber : Snippet.lineNumber (Snippet.lines src).length d.line = n := by
    rw [Snippet.lineNumber, hn]
    omega
  unfold snippet
  simp only [hnumber]
  rw [Snippet.numbered_eq src (n + 1), Snippet.numbered_eq src n, Snippet.numbered_eq src (n - 1),
    Snippet.inLines_if, Snippet.inLines_if, Snippet.rowsAround]
  have hbreaks : utf8 "\n\n" = [lineFeed, lineFeed] := rfl
  have hcaret : utf8 "^\n" = utf8 "^" ++ [lineFeed] := rfl
  have hnil : inLines [] = [] := rfl
  simp only [hbreaks, hcaret, hnil, inLines_cons, inLines_append, Snippet.caretRow,
    List.append_assoc, List.cons_append, List.nil_append]

/-- The source line and the row of the caret stand next to each other, where `row` says. -/
theorem shown_eq {d : Diagnostic} {src : Text} {n : Nat} (hn : d.line = n) (hlow : 1 ≤ n)
    (hup : n ≤ (Snippet.lines src).length) :
    ∃ before after : List Text, before.length = d.row ∧
      d.shown src = before ++ ([Snippet.sourceRow src n, Snippet.caretRow
        (Snippet.caretColumn ((Snippet.lines src).getD (n - 1) []) d.column)] ++ after) := by
  have hrows : ∀ r ∈ [] :: Snippet.rowsAround src n
      (Snippet.caretColumn ((Snippet.lines src).getD (n - 1) []) d.column), lineFeed ∉ r := by
    rw [List.forall_mem_cons]
    exact ⟨List.not_mem_nil, Snippet.lineFeed_not_mem_rowsAround src n _⟩
  have hsplit := splitOn_inLines hrows []
  rw [List.append_nil] at hsplit
  refine ⟨splitOn lineFeed d.text ++ [] :: (if 1 < n then [Snippet.sourceRow src (n - 1)] else []),
    (if n < (Snippet.lines src).length then [Snippet.sourceRow src (n + 1)] else []) ++ [[]],
    ?_, ?_⟩
  · rw [List.length_append, length_splitOn, row, hn]
    by_cases h : 1 < n
    · rw [if_pos h, if_pos (by omega)]
      rfl
    · rw [if_neg h, if_neg (by omega)]
      rfl
  · rw [shown, snippet_eq hn hlow hup, splitOn_append_cons, hsplit, Snippet.rowsAround]
    simp only [List.append_assoc, List.cons_append]
    rfl

/-- The source line and the caret are among the rows that are shown. -/
theorem exists_shows {d : Diagnostic} {src : Text} {n : Nat} (hn : d.line = n) (hlow : 1 ≤ n)
    (hup : n ≤ (Snippet.lines src).length) (hcolumn : 1 ≤ d.column) :
    ∃ line, d.Shows src (Snippet.gutter n) line (Snippet.caretRow d.column.toNat) := by
  obtain ⟨before, after, hbefore, hshown⟩ := shown_eq hn hlow hup
  rw [Snippet.caretColumn, if_neg (by omega)] at hshown
  refine ⟨(Snippet.lines src).getD (n - 1) [], ?_, ?_, ?_, Snippet.count_caretRow _⟩
  · rw [hn, show ((n : Int) - 1).toNat = n - 1 by omega, List.getD_eq_getElem?_getD,
      List.getElem?_eq_getElem (by omega)]
    rfl
  · rw [hshown, ← hbefore, List.getElem?_append_right (Nat.le_refl _), Nat.sub_self]
    rfl
  · rw [hshown, ← hbefore, List.getElem?_append_right (Nat.le_add_right _ 1),
      Nat.add_sub_cancel_left]
    rfl

/-- The caret stands at the byte of the shown line that its column counts to, exactly up to line
9999. -/
theorem caret_under_column_iff (d : Diagnostic) (src : Text) (hlow : 1 ≤ d.line)
    (hup : d.line ≤ (Snippet.lines src).length) (hcolumn : 1 ≤ d.column) :
    ∃ gutter line under : Text, d.Shows src gutter line under ∧
      ((under.idxOf Snippet.caret : Int) = gutter.length + (d.column - 1) ↔ d.line ≤ 9999) := by
  obtain ⟨n, hn⟩ : ∃ n : Nat, d.line = n := ⟨d.line.toNat, by omega⟩
  rw [hn] at hlow hup
  obtain ⟨line, hline⟩ := exists_shows hn (Int.ofNat_le.1 hlow) (Int.ofNat_le.1 hup) hcolumn
  refine ⟨_, line, _, hline, ?_⟩
  have hgutter := Snippet.length_gutter_eq_iff n
  rw [Snippet.idxOf_caretRow, hn]
  omega

/-- The caret of a diagnostic at the third byte of the second line. -/
theorem caret_under_third_byte :
    let d : Diagnostic := ⟨.source, "unknown word", 2, 3⟩
    let src : Text := "LOAD 1\n  HOP\nEND"
    ((1 : Int) ≤ 2 ∧ (2 : Int) ≤ (Snippet.lines src).length ∧ (1 : Int) ≤ 3) ∧
      ∃ gutter line under : Text, d.Shows src gutter line under ∧
        ((under.idxOf Snippet.caret : Int) = gutter.length + (3 - 1) ↔ (2 : Int) ≤ 9999) :=
  ⟨by decide +kernel, caret_under_column_iff ⟨.source, "unknown word", 2, 3⟩ "LOAD 1\n  HOP\nEND"
    (by decide) (by decide +kernel) (by decide)⟩

/-- On line 10000 the caret of the first column stands to the left of the first byte. -/
theorem caret_beside_column :
    let d : Diagnostic := ⟨.source, "boom", 10000, 1⟩
    let src : Text := List.replicate 9999 lineFeed ++ "x"
    (1 ≤ d.line ∧ d.line ≤ (Snippet.lines src).length ∧ 1 ≤ d.column) ∧
      ∃ gutter line under : Text, d.Shows src gutter line under ∧
        (under.idxOf Snippet.caret : Int) < gutter.length + (d.column - 1) := by
  intro d src
  have hreturns : carriageReturn ∉ src := by
    intro h
    rcases List.mem_append.1 h with h | h
    · cases (List.mem_replicate.1 h).2
    · cases List.mem_singleton.1 h
  have hcount : (Snippet.lines src).length = 10000 := by
    rw [Snippet.lines, Snippet.dropReturns_of_not_mem hreturns, length_splitOn, List.count_append,
      List.count_replicate_self]
    rfl
  have hup : 10000 ≤ (Snippet.lines src).length := Nat.le_of_eq hcount.symm
  have hcolumn : 1 ≤ d.column := Int.le_refl 1
  obtain ⟨line, hline⟩ := exists_shows (d := d) (n := 10000) rfl (by decide) hup hcolumn
  refine ⟨⟨by decide, Int.ofNat_le.2 hup, hcolumn⟩, _, line, _, hline, ?_⟩
  have hwide : ¬ (Snippet.gutter 10000).length = 7 := by
    rw [Snippet.length_gutter_eq_iff]
    decide
  have hgutter := Snippet.length_gutter 10000
  rw [Snippet.idxOf_caretRow]
  show ((7 + 0 : Nat) : Int) < _ + (1 - 1)
  omega

end Diagnostic

end RobotMaze

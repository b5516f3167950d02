import RobotMaze.Diagnostic.Snippet
import RobotMaze.Proofs.Run.Errors
import RobotMaze.Proofs.Text.Lines

/-!
# How lines are numbered

A snippet takes out the carriage returns before line feeds and then cuts the source into lines.  A
program cuts first and then drops one carriage return at the end of each line.  The two disagree
only about a carriage return at the end of the source, where no line feed follows.

* `Text.exists_inLines` — every text is made of lines that a line feed ends, and a rest;
* `Snippet.lines_inLines`, `Program.lines_inLines` — its lines in a snippet and in a program;
* `Run.lines_numbered_alike` — an error of a run has the same line in both.
-/

namespace RobotMaze

open Text

/-! ## Lines and a rest -/

namespace Text

/-- Every text is made of lines that a line feed ends, and a rest without line feeds. -/
theorem exists_inLines (t : Text) :
    ∃ (ended : List Text) (rest : Text), (∀ line ∈ ended, lineFeed ∉ line) ∧ lineFeed ∉ rest ∧
      t = inLines ended ++ rest := by
  induction t with
  | nil => exact ⟨[], [], fun _ h => absurd h List.not_mem_nil, List.not_mem_nil, rfl⟩
  | cons b t ih =>
    obtain ⟨ended, rest, hended, hrest, rfl⟩ := ih
    by_cases hb : b = lineFeed
    · subst hb
      refine ⟨[] :: ended, rest, ?_, hrest, by rw [inLines_cons]; rfl⟩
      exact List.forall_mem_cons.2 ⟨List.not_mem_nil, hended⟩
    · -- the byte belongs to the first line, or to the rest if there is none
      cases ended with
      | nil =>
        refine ⟨[], b :: rest, hended, ?_, rfl⟩
        rw [List.mem_cons, not_or]
        exact ⟨Ne.symm hb, hrest⟩
      | cons line ended =>
        rw [List.forall_mem_cons] at hended
        refine ⟨(b :: line) :: ended, rest, ?_, hrest, by rw [inLines_cons, inLines_cons]; rfl⟩
        rw [List.forall_mem_cons, List.mem_cons, not_or]
        exact ⟨⟨Ne.symm hb, hended.1⟩, hended.2⟩

theorem splitOn_inLines_rest {ended : List Text} {rest : Text}
    (hended : ∀ line ∈ ended, lineFeed ∉ line) (hrest : lineFeed ∉ rest) :
    splitOn lineFeed (inLines ended ++ rest) = ended ++ [rest] := by
  rw [splitOn_inLines hended, splitOn_of_not_mem hrest]

/-- A text ends in another byte than a line feed exactly if its rest does. -/
theorem getLast?_inLines_append {b : UInt8} (hb : b ≠ lineFeed) (ended : List Text)
    (rest : Text) : (inLines ended ++ rest).getLast? = some b ↔ rest.getLast? = some b := by
  cases rest with
  | cons c rest => rw [List.getLast?_append_of_ne_nil _ (List.cons_ne_nil c rest)]
  | nil =>
    rw [List.append_nil]
    refine ⟨fun h => ?_, fun h => by cases h⟩
    rcases List.eq_nil_or_concat ended with rfl | ⟨before, line, rfl⟩
    · cases h
    · rw [List.concat_eq_append, inLines_append, inLines_cons, List.getLast?_append_of_ne_nil,
        List.getLast?_append_of_ne_nil] at h
      · exact absurd (Option.some.inj h).symm hb
      · exact List.cons_ne_nil _ _
      · simp

theorem dropLast?_of_getLast? {b : UInt8} {t : Text} (h : t.getLast? = some b) :
    dropLast? b t ++ [b] = t := by
  rw [dropLast?, if_pos h]
  exact List.dropLast_append_getLast? b h

theorem dropLast?_of_ne {b : UInt8} {t : Text} (h : t.getLast? ≠ some b) : dropLast? b t = t :=
  if_neg h

theorem dropLast?_cons_cons (b c d : UInt8) (t : Text) :
    dropLast? b (c :: d :: t) = c :: dropLast? b (d :: t) := by
  unfold dropLast?
  rw [List.getLast?_cons_cons]
  split
  · rfl
  · rfl

theorem lineFeed_not_mem_dropLast? {t : Text} (b : UInt8) (h : lineFeed ∉ t) :
    lineFeed ∉ dropLast? b t := by
  unfold dropLast?
  split
  · exact fun hmem => h ((List.dropLast_sublist t).subset hmem)
  · exact h

end Text

/-! ## The lines of a snippet and of a program -/

namespace Snippet

/-- A carriage return is taken out only before a line feed. -/
theorem dropReturns_of_lineFeed_not_mem {t : Text} (h : lineFeed ∉ t) : dropReturns t = t := by
  fun_induction dropReturns t with
  | case1 => rfl
  | case2 b => rfl
  | case3 b c rest hbreak ih =>
    rw [List.mem_cons, List.mem_cons, not_or, not_or] at h
    exact absurd hbreak.2.symm h.2.1
  | case4 b c rest _ ih => rw [ih fun hmem => h (List.mem_cons_of_mem b hmem)]

theorem dropReturns_lineFeed_cons (t : Text) :
    dropReturns (lineFeed :: t) = lineFeed :: dropReturns t := by
  cases t with
  | nil => rfl
  | cons c t =>
    rw [dropReturns, if_neg]
    exact fun h => absurd h.1 (by decide)

/-- A line that a line feed ends loses one carriage return. -/
theorem dropReturns_line {line : Text} (h : lineFeed ∉ line) (t : Text) :
    dropReturns (line ++ lineFeed :: t)
      = dropLast? carriageReturn line ++ lineFeed :: dropReturns t := by
  induction line with
  | nil => exact dropReturns_lineFeed_cons t
  | cons b line ih =>
    rw [List.mem_cons, not_or] at h
    cases line with
    | nil =>
      rw [List.cons_append, List.nil_append, dropReturns, dropReturns_lineFeed_cons]
      by_cases hb : b = carriageReturn
      · subst hb
        rw [if_pos ⟨rfl, rfl⟩]
        rfl
      · have hlast : [b].getLast? ≠ some carriageReturn := fun h => hb (Option.some.inj h)
        rw [if_neg fun hbreak => hb hbreak.1, dropLast?_of_ne hlast]
        rfl
    | cons c line =>
      have hc : ¬ (b = carriageReturn ∧ c = lineFeed) :=
        fun hbreak => h.2 (hbreak.2 ▸ List.mem_cons_self)
      rw [dropLast?_cons_cons, List.cons_append, List.cons_append, dropReturns, if_neg hc,
        ← List.cons_append, ih h.2, List.cons_append]

theorem dropReturns_inLines {ended : List Text} {rest : Text}
    (hended : ∀ line ∈ ended, lineFeed ∉ line) (hrest : lineFeed ∉ rest) :
    dropReturns (inLines ended ++ rest)
      = inLines (ended.map (dropLast? carriageReturn)) ++ rest := by
  induction ended with
  | nil => exact dropReturns_of_lineFeed_not_mem hrest
  | cons line ended ih =>
    rw [List.forall_mem_cons] at hended
    rw [inLines_cons, List.append_assoc, List.cons_append, dropReturns_line hended.1, ih hended.2,
      List.map_cons, inLines_cons, List.append_assoc, List.cons_append]

/-- In a snippet the rest of the source keeps its carriage return. -/
theorem lines_inLines {ended : List Text} {rest : Text}
    (hended : ∀ line ∈ ended, lineFeed ∉ line) (hrest : lineFeed ∉ rest) :
    lines (inLines ended ++ rest) = ended.map (dropLast? carriageReturn) ++ [rest] := by
  have htrimmed : ∀ line ∈ ended.map (dropLast? carriageReturn), lineFeed ∉ line := by
    intro line hline
    obtain ⟨old, hold, rfl⟩ := List.mem_map.1 hline
    exact lineFeed_not_mem_dropLast? _ (hended old hold)
  rw [lines, dropReturns_inLines hended hrest, splitOn_inLines_rest htrimmed hrest]

end Snippet

/-- In a program the rest of the source loses a carriage return like any other line. -/
theorem Program.lines_inLines {ended : List Text} {rest : Text}
    (hended : ∀ line ∈ ended, lineFeed ∉ line) (hrest : lineFeed ∉ rest) :
    (ofSource (inLines ended ++ rest)).lines
      = ended.map (dropLast? carriageReturn) ++ [dropLast? carriageReturn rest] := by
  rw [ofSource, splitOn_inLines_rest hended hrest, List.map_append]
  rfl

/-- A snippet has as many lines as the program. -/
theorem Snippet.length_lines (src : Text) : (lines src).length = (Program.ofSource src).size := by
  obtain ⟨ended, rest, hended, hrest, rfl⟩ := exists_inLines src
  rw [Program.size, lines_inLines hended hrest, Program.lines_inLines hended hrest,
    List.length_append, List.length_append]
  rfl

/-- A snippet has the lines of the program, except for a carriage return at the end of the source.
-/
theorem Snippet.getElem?_lines {src line : Text} {n : Nat}
    (h : (Program.ofSource src).lines[n]? = some line) :
    (lines src)[n]? = some (if n + 1 = (Program.ofSource src).size ∧
      src.getLast? = some carriageReturn then line ++ [carriageReturn] else line) := by
  obtain ⟨ended, rest, hended, hrest, rfl⟩ := exists_inLines src
  have hcount : (Program.ofSource (inLines ended ++ rest)).size = ended.length + 1 := by
    rw [Program.size, Program.lines_inLines hended hrest, List.length_append, List.length_map]
    rfl
  rw [Program.lines_inLines hended hrest] at h
  rw [lines_inLines hended hrest, hcount]
  simp only [getLast?_inLines_append (show carriageReturn ≠ lineFeed by decide)]
  rcases Nat.lt_trichotomy n ended.length with hlt | rfl | hgt
  · have hmapped : n < (ended.map (dropLast? carriageReturn)).length := by
      rwa [List.length_map]
    rw [List.getElem?_append_left hmapped] at h ⊢
    rw [h, if_neg fun hlast => absurd hlast.1 (by omega)]
  · have hend : ∀ last : Text,
        (ended.map (dropLast? carriageReturn) ++ [last])[ended.length]? = some last := by
      intro last
      rw [List.getElem?_append_right (by rw [List.length_map]), List.length_map, Nat.sub_self]
      rfl
    rw [hend] at h ⊢
    cases h
    by_cases hlast : rest.getLast? = some carriageReturn
    · rw [if_pos ⟨rfl, hlast⟩, dropLast?_of_getLast? hlast]
    · rw [if_neg fun hboth => hlast hboth.2, dropLast?_of_ne hlast]
  · rw [List.getElem?_eq_none] at h
    · cases h
    · rw [List.length_append, List.length_map]
      exact hgt

/-! ## Errors of runs -/

namespace Run

/-- **A snippet and a run number the same lines.**  They have as many lines, and the same ones,
except that the last line of a snippet keeps the carriage return that the source may end in.  So the
line of an error of a run is a line of the snippet, and is shown as it is. -/
theorem lines_numbered_alike (src : Text) :
    (Snippet.lines src).length = (Program.ofSource src).size ∧
    (∀ (n : Nat) (line : Text), (Program.ofSource src).lines[n]? = some line →
      (Snippet.lines src)[n]? = some (if n + 1 = (Program.ofSource src).size ∧
        src.getLast? = some carriageReturn then line ++ [carriageReturn] else line)) ∧
    ∀ (c : Config) (limit : Nat) (e : Error), (run c limit src).ending = .error (.failed e) →
      (Snippet.lineNumber (Snippet.lines src).length e.line : Int) = e.line := by
  refine ⟨Snippet.length_lines src, fun n line h => Snippet.getElem?_lines h, ?_⟩
  intro c limit e he
  have hreports := (course_run c limit src).reports he
  have hlow := hreports.low
  have hup := hreports.up
  rw [Snippet.length_lines, Snippet.lineNumber]
  omega

/-- An action with a word too many, among lines that end in four ways and one that has a carriage
return inside. -/
def mixedEnds : Text := utf8 "LOAD 1\r\n@ to\rdo\n\tMOVE_FORWARD now\r\r\nEND\r"

/-- The error on the third line is shown on the third line, and the fourth and last line keeps its
carriage return in the snippet. -/
theorem mixedEnds_lines_numbered_alike :
    (run Structured.corridor 1 mixedEnds).ending
        = .error (.failed ⟨.actionArguments .moveForward, 3, 15⟩) ∧
      (Snippet.lineNumber (Snippet.lines mixedEnds).length 3 : Int) = 3 ∧
      (Program.ofSource mixedEnds).lines[3]? = some (utf8 "END") ∧
      (Snippet.lines mixedEnds)[3]? = some (utf8 "END\r") := by
  have hending : (run Structured.corridor 1 mixedEnds).ending
      = .error (.failed ⟨.actionArguments .moveForward, 3, 15⟩) := by decide +kernel
  have hline : (Program.ofSource mixedEnds).lines[3]? = some (utf8 "END") := by decide
  obtain ⟨-, hlines, herrors⟩ := lines_numbered_alike mixedEnds
  exact ⟨hending, herrors _ _ _ hending, hline, hlines 3 _ hline⟩

end Run

end RobotMaze

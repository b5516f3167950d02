import RobotMaze.Vocabulary
import RobotMaze.Text.Atom

/-!
# Spelling hints

A word outside the language is matched against the keywords.  A keyword is a candidate if the word,
without regard to case, can be read off it from left to right with letters left out; the candidate
with the least edit distance to the word, as it was written, is the hint.
-/

namespace RobotMaze.Hint

/-- The lower case of a character, as far as it is an ASCII character.

Besides the capital letters, the dotted capital I and the Kelvin sign have an ASCII lower case;
every other character differs from all keyword characters in either case and stays as it is. -/
def fold (c : Char) : Char :=
  if c.toNat = 0x130 then 'i'
  else if c.toNat = 0x212A then 'k'
  else c.toLower

/-- An atom in lower case. -/
def foldAtom : Text.Atom → Text.Atom
  | .char c => .char (fold c)
  | .stray b => .stray b

/-- The row of edit distances after one more character `x`, given the row `above` for the characters
before it.

The entries of `above` from its second on belong to the characters `ys`; `corner` is the entry
before them and `left` the last entry already computed. -/
def distanceRow {α : Type} [DecidableEq α] (x : α) : List α → Nat → Nat → List Nat → List Nat
  | y :: ys, corner, left, up :: above =>
    let entry := min (min (left + 1) (up + 1)) (if x = y then corner else corner + 1)
    entry :: distanceRow x ys up entry above
  | _, _, _, _ => []

/-- The edit distances between what was read of the first list, of length `read`, and the starts of
`ys`, carried over the characters `xs`. -/
def distances {α : Type} [DecidableEq α] (ys : List α) : List α → Nat → List Nat → Nat
  | [], read, row => row.getLast?.getD read
  | x :: xs, read, row => distances ys xs (read + 1) (distanceRow x ys read (read + 1) row)

/-- The least number of insertions, deletions and replacements that turn `xs` into `ys`. -/
def editDistance {α : Type} [DecidableEq α] (xs ys : List α) : Nat :=
  distances ys xs 0 ((List.range ys.length).map (· + 1))

/-- Whether a keyword can be the meant one for a word. -/
def isCandidate (word : List Text.Atom) (k : Kind) : Bool :=
  (word.map foldAtom).isSublist (k.text.atoms.map foldAtom)

/-- The better of two candidates with their distances; the earlier one wins a tie. -/
def better (best : Option (Nat × Kind)) (next : Nat × Kind) : Option (Nat × Kind) :=
  match best with
  | some b => if next.1 < b.1 then some next else some b
  | none => some next

/-- The keyword that is most likely meant by a word, if any is. -/
def suggest (word : Text) : Option Kind :=
  let atoms := word.atoms
  let ranked := (Kind.keywords.filter (isCandidate atoms)).map fun k =>
    (editDistance atoms k.text.atoms, k)
  (ranked.foldl better none).map (·.2)

end RobotMaze.Hint

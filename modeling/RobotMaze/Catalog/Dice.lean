import RobotMaze.Catalog.Dice.Table

/-!
# Drawing numbers

Dice are thrown from a seed, and the same seed always gives the same throws.  The throws come from
an additive recurrence on 64-bit words: each word is the sum of the one 607 places and the one 273
places before it, modulo `2^64`.  The words before the first are a fixed table that a multiplicative
generator mixes the seed into.  Seeds that differ by a multiple of `2^31 - 1` are the same seed.
-/

namespace RobotMaze

/-- A sequence of throws. -/
structure Dice where
  /-- The last 607 words, the oldest first. -/
  words : List UInt64
  deriving DecidableEq, Repr

namespace Dice

/-! ## Seeds -/

/-- The modulus of the seeds: the prime `2^31 - 1`. -/
def modulus : Nat := 0x7FFFFFFF

/-- The least positive seed that is the same as `seed`; a multiple of the modulus counts as one
fixed seed. -/
def normalize (seed : Int) : Nat :=
  let r := (seed % modulus).toNat
  if r = 0 then 89482311 else r

/-- The next number of the generator that spreads a seed. -/
def spread (x : Nat) : Nat := x * 48271 % modulus

/-- The generator after some steps. -/
def spreadBy : (steps : Nat) → Nat → Nat
  | 0, x => x
  | steps + 1, x => spreadBy steps (spread x)

/-- Mixes the generator into words, three of its numbers into each. -/
def mix : Nat → List UInt64 → List UInt64
  | _, [] => []
  | x, w :: rest =>
    let a := spread x
    let b := spread a
    let c := spread b
    (w ^^^ (a.toUInt64 <<< 40) ^^^ (b.toUInt64 <<< 20) ^^^ c.toUInt64) :: mix c rest

/-- The dice of a seed.  The words of the table are used from the 334th downwards, and then from the
last. -/
def ofSeed (seed : Int) : Dice :=
  let words := mix (spreadBy 20 (normalize seed)) table
  ⟨(words.take 334).reverse ++ (words.drop 334).reverse⟩

/-! ## Throws -/

/-- The next word of the recurrence. -/
def nextWord (d : Dice) : UInt64 := d.words.headD 0 + d.words.getD 334 0

/-- A throw, which has 31 bits, and the dice after it. -/
def throw (d : Dice) : Nat × Dice :=
  (d.nextWord.toNat % 0x8000000000000000 / 0x100000000, ⟨d.words.tail ++ [d.nextWord]⟩)

/-- The first throw below a limit and the dice after it, or the last of the given number of throws.
-/
def throwBelow : (throws : Nat) → (limit : Nat) → Dice → Nat × Dice
  | 0, _, d => d.throw
  | throws + 1, limit, d =>
    let (v, next) := d.throw
    if v < limit then (v, next) else throwBelow throws limit next

/-- A number below `n` and the dice after the throws that chose it.  Throws above the last multiple
of `n` are repeated, so that all numbers are equally likely. -/
def below (d : Dice) (n : Nat) : Nat × Dice :=
  let (v, next) := d.throwBelow 100 (0x80000000 - 0x80000000 % n)
  (v % n, next)

/-- The chosen number lies below the bound. -/
theorem below_lt (d : Dice) {n : Nat} (h : 0 < n) : (d.below n).1 < n :=
  Nat.mod_lt _ h

end Dice

end RobotMaze

import RobotMaze.Number.Rounded
import RobotMaze.Text.Numeral

/-!
# Durations

A duration is a sign and a row of numbers with units, such as `1.5s` or `1m30s`; only zero needs no
unit.  It is counted in nanoseconds and has to fit into 64 bits.
-/

namespace RobotMaze.Duration

/-- The nanoseconds of a unit. -/
def unit? (t : Text) : Option Nat :=
  [("ns", 1), ("us", 1000), ("µs", 1000), ("μs", 1000), ("ms", 1000000),
    ("s", 1000000000), ("m", 60000000000), ("h", 3600000000000)].findSome? fun (name, n) =>
      if utf8 name = t then some n else none

/-- The value of decimal digits. -/
def digits (t : Text) : Nat := t.foldl (fun n b => n * 10 + (b.toNat - 48)) 0

/-- Whether a byte belongs to a number: a digit or a point. -/
def isNumberByte (b : UInt8) : Bool := Text.isAsciiDigit b || b == 46

/-- The number at the front of a text as its digits before and after the point, and the text behind
it. -/
def number? (t : Text) : Option (Text × Text × Text) :=
  let whole := t.takeWhile Text.isAsciiDigit
  let (fraction, behind) : Text × Text :=
    match t.dropWhile Text.isAsciiDigit with
    | 46 :: rest => (rest.takeWhile Text.isAsciiDigit, rest.dropWhile Text.isAsciiDigit)
    | rest => ([], rest)
  if whole.isEmpty && fraction.isEmpty then none else some (whole, fraction, behind)

/-- The value of the digits of a fraction and the power of ten below them, as far as the value fits
into 63 bits: the digits from the first that does not fit are left out. -/
def fractionFrom : (value : Nat) → (scale : Rounded) → Text → Nat × Rounded
  | value, scale, [] => (value, scale)
  | value, scale, b :: rest =>
    let next := value * 10 + (b.toNat - 48)
    if (Numeral.signedBound - 1) / 10 < value || Numeral.signedBound < next then (value, scale)
    else fractionFrom next (scale.mul (Rounded.ofNat 10)) rest

/-- The nanoseconds of the fraction of a unit, without what is behind the point. -/
def fractionOf (unit : Nat) (fraction : Text) : Nat :=
  let (value, scale) := fractionFrom 0 (Rounded.ofNat 1) fraction
  ((Rounded.ofNat value).mul ((Rounded.ofNat unit).div scale)).floor

/-- Adds up numbers with units, in at most the given number of steps.  No number and no total may
be above `2^63`; the total is a 64-bit word. -/
def sum : (fuel : Nat) → (total : Nat) → Text → Option Nat
  | _, total, [] => some total
  | 0, _, _ :: _ => none
  | fuel + 1, total, t => do
    let (whole, fraction, behind) ← number? t
    let unit ← unit? (behind.takeWhile fun b => !isNumberByte b)
    let value := digits whole * unit + fractionOf unit fraction
    let next := (total + value) % Numeral.wordSize
    if Numeral.signedBound < value || Numeral.signedBound < next then none
    else sum fuel next (behind.dropWhile fun b => !isNumberByte b)

/-- The nanoseconds of a duration. -/
def ofText? (t : Text) : Option Int :=
  let (negative, body) : Bool × Text :=
    match t with
    | 45 :: rest => (true, rest)
    | 43 :: rest => (false, rest)
    | _ => (false, t)
  if body = [48] then some 0
  else if body.isEmpty then none
  else
    match sum body.length 0 body with
    | some total =>
      if negative then some (-(total : Int))
      else if total < Numeral.signedBound then some total
      else none
    | none => none

end RobotMaze.Duration

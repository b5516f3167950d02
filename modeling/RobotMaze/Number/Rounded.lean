/-!
# Numbers of 53 bits

Fractions are computed with 53 significant bits: every result is the nearest number of that
precision, and a result halfway between two goes to the one with the even last bit.  The exponent
has no bounds.
-/

namespace RobotMaze

/-- The number `mantissa * 2^exponent`. -/
structure Rounded where
  mantissa : Nat
  exponent : Int
  deriving DecidableEq, Repr

namespace Rounded

/-- The natural number nearest to a quotient; a half goes to the even neighbour. -/
def nearest (num den : Nat) : Nat :=
  let q := num / den
  let twice := 2 * (num % den)
  if den < twice || (twice == den && q % 2 == 1) then q + 1 else q

/-- The quotient `num / den` divided by `2^exponent`, as numerator and denominator. -/
def scaled (num den : Nat) (exponent : Int) : Nat × Nat :=
  if exponent < 0 then (num <<< exponent.natAbs, den) else (num, den <<< exponent.toNat)

/-- The number of 53 bits nearest to a quotient. -/
def ofRatio (num den : Nat) : Rounded :=
  if num = 0 || den = 0 then ⟨0, 0⟩
  else
    let guess : Int := (num.log2 : Int) - (den.log2 : Int) - 53
    let (n, d) := scaled num den guess
    let exponent := if n / d < 0x20000000000000 then guess else guess + 1
    let (n, d) := scaled num den exponent
    ⟨nearest n d, exponent⟩

/-- The number of 53 bits nearest to a natural number. -/
def ofNat (n : Nat) : Rounded := ofRatio n 1

/-- The product, rounded. -/
def mul (a b : Rounded) : Rounded :=
  let p := ofRatio (a.mantissa * b.mantissa) 1
  ⟨p.mantissa, p.exponent + a.exponent + b.exponent⟩

/-- The quotient, rounded. -/
def div (a b : Rounded) : Rounded :=
  let q := ofRatio a.mantissa b.mantissa
  ⟨q.mantissa, q.exponent + a.exponent - b.exponent⟩

/-- The part of a number before the point. -/
def floor (a : Rounded) : Nat :=
  if a.exponent < 0 then a.mantissa >>> a.exponent.natAbs else a.mantissa <<< a.exponent.toNat

/-- The number that `digits` and a power of ten stand for, rounded.  There is none from `2^1024` on.
Powers that decide the matter alone are not computed. -/
def ofDecimal? (digits : Nat) (exponent : Int) : Option Rounded :=
  if digits = 0 || exponent < -400 - (digits.log2 : Int) then some ⟨0, 0⟩
  else if 400 < exponent then none
  else
    let power := Nat.pow 10 exponent.natAbs
    let r := if exponent < 0 then ofRatio digits power else ofRatio (digits * power) 1
    if (r.mantissa.log2 : Int) + r.exponent < 1024 then some r else none

end Rounded

end RobotMaze

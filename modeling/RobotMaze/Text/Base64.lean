import RobotMaze.Text

/-!
# Base 64

Bytes written as letters that stand for six bits each: four letters for three bytes, and equals
signs in the places that the last group lacks.  Line ends between letters have no meaning.
-/

namespace RobotMaze.Text

/-- The six bits that a letter stands for. -/
def sixBits? (b : UInt8) : Option Nat :=
  if 65 ≤ b && b ≤ 90 then some (b.toNat - 65)
  else if 97 ≤ b && b ≤ 122 then some (b.toNat - 71)
  else if isAsciiDigit b then some (b.toNat + 4)
  else if b = 43 then some 62
  else if b = 47 then some 63
  else none

/-- The bytes of groups of four letters.  The last group may end with one or two equals signs. -/
def ofGroups? : Text → Option Text
  | [] => some []
  | [a, b, 61, 61] => do
    let n := (← sixBits? a) * 64 + (← sixBits? b)
    return [(n / 16).toUInt8]
  | [a, b, c, 61] => do
    let n := ((← sixBits? a) * 64 + (← sixBits? b)) * 64 + (← sixBits? c)
    return [(n / 1024).toUInt8, (n / 4).toUInt8]
  | a :: b :: c :: d :: rest => do
    let n := (((← sixBits? a) * 64 + (← sixBits? b)) * 64 + (← sixBits? c)) * 64 + (← sixBits? d)
    let others ← ofGroups? rest
    return (n / 65536).toUInt8 :: (n / 256).toUInt8 :: n.toUInt8 :: others
  | _ => none

/-- The bytes that a text in base 64 stands for. -/
def ofBase64? (t : Text) : Option Text :=
  ofGroups? (t.filter fun b => b != lineFeed && b != carriageReturn)

end RobotMaze.Text

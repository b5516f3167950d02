import RobotMaze.Text

/-!
# Integer literals

Integers are written in decimal, or with `0x`, `0o` or `0b` in base sixteen, eight or two, or with a
leading zero in base eight.  Underscores may stand between digits and after the mark of the base.
The value has to fit into 64 bits.
-/

namespace RobotMaze.Numeral

/-- Why a text is no integer. -/
inductive Problem where
  | malformed
  | outOfRange
  deriving DecidableEq, Repr

/-- The number of values of a 64-bit word. -/
def wordSize : Nat := 0x10000000000000000

/-- The first number that a signed 64-bit word cannot hold. -/
def signedBound : Nat := 0x8000000000000000

/-- The underscore byte. -/
def underscore : UInt8 := 95

/-- The value of a digit in any base. -/
def digitValue? (b : UInt8) : Option Nat :=
  if 48 ≤ b && b ≤ 57 then some (b.toNat - 48)
  else if 97 ≤ b && b ≤ 122 then some (b.toNat - 87)
  else if 65 ≤ b && b ≤ 90 then some (b.toNat - 55)
  else none

/-- The base of an unsigned literal and its digits without the mark of the base. -/
def base (t : Text) : Nat × Text :=
  match t with
  | 48 :: m :: d :: rest =>
    if m = 98 || m = 66 then (2, d :: rest)
    else if m = 111 || m = 79 then (8, d :: rest)
    else if m = 120 || m = 88 then (16, d :: rest)
    else (8, m :: d :: rest)
  | 48 :: rest => (8, rest)
  | _ => (10, t)

/-- Carries the value of a literal over the rest of its digits, as long as it fits into 64 bits. -/
def valueFrom (base : Nat) : (value : Nat) → Text → Except Problem Nat
  | value, [] => .ok value
  | value, b :: rest =>
    if b = underscore then valueFrom base value rest
    else
      match digitValue? b with
      | some d =>
        if base ≤ d then .error .malformed
        else if wordSize ≤ value * base + d then .error .outOfRange
        else valueFrom base (value * base + d) rest
      | none => .error .malformed

/-- Whether every underscore stands between digits; `afterDigit` says whether a digit stands before
the text. -/
def underscoresFit : (afterDigit : Bool) → Text → Bool
  | _, [] => true
  | _, [b] => b != underscore
  | afterDigit, b :: c :: rest =>
    if b = underscore then afterDigit && c != underscore && underscoresFit false (c :: rest)
    else underscoresFit true (c :: rest)

/-- The value of a literal without sign. -/
def unsigned (t : Text) : Except Problem Nat :=
  if t.isEmpty then .error .malformed
  else do
    let (base, digits) := base t
    let value ← valueFrom base 0 digits
    if underscoresFit (digits.length < t.length) digits then return value else throw .malformed

/-- The text without its sign, and whether it is a minus sign. -/
def splitSign : Text → Bool × Text
  | 43 :: rest => (false, rest)
  | 45 :: rest => (true, rest)
  | t => (false, t)

/-- The number with a sign, if it is a signed 64-bit integer. -/
def withSign (negative : Bool) (value : Nat) : Except Problem Int :=
  if negative then
    if value ≤ signedBound then .ok (-(value : Int)) else .error .outOfRange
  else
    if value < signedBound then .ok value else .error .outOfRange

/-- The value of a literal as a 64-bit integer. -/
def signed (t : Text) : Except Problem Int := do
  let (negative, digits) := splitSign t
  withSign negative (← unsigned digits)

/-- The 64-bit integer that digits of a given base stand for, perhaps with a sign, or without sign a
number below `2^64`. -/
def signedIn? (base : Nat) (t : Text) : Option Int :=
  let (negative, digits) := splitSign t
  if digits.isEmpty || digits.contains underscore then none
  else
    match valueFrom base 0 digits with
    | .ok value =>
      if digits.length = t.length then some value else (withSign negative value).toOption
    | .error _ => none

end RobotMaze.Numeral

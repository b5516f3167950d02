import RobotMaze.Text
import RobotMaze.Text.Letter

/-!
# Characters of a byte text

A text is read as UTF-8 from the left.  A byte that starts no well-formed character is an atom of
its own, so every text has a reading, and `Text.isUtf8` says that it has no stray bytes.
-/

namespace RobotMaze.Text

/-- A character of a text, or a byte that belongs to none. -/
inductive Atom where
  | char (c : Char)
  | stray (b : UInt8)
  deriving DecidableEq, Repr

/-- Whether `b` can follow the first byte of a character. -/
def isTail (b : UInt8) : Bool :=
  0x80 ≤ b && b ≤ 0xBF

/-- The character at the front of a text and its length in bytes, if a well-formed one stands there.
-/
def leading? : Text → Option (Char × Nat)
  | [] => none
  | a :: rest =>
    if a < 0x80 then
      some (Char.ofNat a.toNat, 1)
    else if 0xC2 ≤ a && a ≤ 0xDF then
      match rest with
      | b :: _ =>
        if isTail b then some (Char.ofNat (a.toNat % 32 * 64 + b.toNat % 64), 2) else none
      | [] => none
    else if 0xE0 ≤ a && a ≤ 0xEF then
      match rest with
      | b :: c :: _ =>
        let n := (a.toNat % 16 * 64 + b.toNat % 64) * 64 + c.toNat % 64
        if isTail b && isTail c && 0x800 ≤ n && !(0xD800 ≤ n && n ≤ 0xDFFF) then
          some (Char.ofNat n, 3)
        else none
      | _ => none
    else if 0xF0 ≤ a && a ≤ 0xF4 then
      match rest with
      | b :: c :: d :: _ =>
        let n := ((a.toNat % 8 * 64 + b.toNat % 64) * 64 + c.toNat % 64) * 64 + d.toNat % 64
        if isTail b && isTail c && isTail d && 0x10000 ≤ n && n ≤ 0x10FFFF then
          some (Char.ofNat n, 4)
        else none
      | _ => none
    else none

/-- The atoms of a text of which the first `skip` bytes are already read. -/
def atomsFrom : Nat → Text → List Atom
  | _, [] => []
  | skip + 1, _ :: rest => atomsFrom skip rest
  | 0, b :: rest =>
    match leading? (b :: rest) with
    | some (c, width) => .char c :: atomsFrom (width - 1) rest
    | none => .stray b :: atomsFrom 0 rest

/-- The atoms of a text, in order. -/
def atoms (t : Text) : List Atom := atomsFrom 0 t

/-- Whether a text is well-formed UTF-8. -/
def isUtf8 (t : Text) : Bool :=
  t.atoms.all fun
    | .char _ => true
    | .stray _ => false

/-- The bytes of a character. -/
def ofChar (c : Char) : Text := String.utf8EncodeChar c

/-- Whether a text consists of letters, decimal digits and underscores. -/
def isWord (t : Text) : Bool :=
  t.atoms.all fun
    | .char c => isLetter c || isDecimalDigit c || c == '_'
    | .stray _ => false

end RobotMaze.Text

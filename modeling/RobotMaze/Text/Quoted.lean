import RobotMaze.Text.Atom
import RobotMaze.Text.Printable

/-!
# Quoted text

Messages show a piece of source between quotes.  The quote and the backslash get a backslash, the
usual control characters have letters, other unprintable characters are written by their number, and
stray bytes as two hexadecimal digits, so that a quoted text is always well-formed and printable.
-/

namespace RobotMaze.Text

/-- The backslash byte. -/
def backslash : UInt8 := 92

/-- The byte of the hexadecimal digit `d`, in lower case. -/
def hexDigit (d : Nat) : UInt8 :=
  if d < 10 then (48 + d).toUInt8 else (87 + d).toUInt8

/-- The last `width` hexadecimal digits of `n`. -/
def hex : (width : Nat) → (n : Nat) → Text
  | 0, _ => []
  | width + 1, n => hex width (n / 16) ++ [hexDigit (n % 16)]

/-- The letter that stands for a control character after a backslash, if it has one. -/
def controlLetter? (n : Nat) : Option Char :=
  match n with
  | 7 => some 'a'
  | 8 => some 'b'
  | 12 => some 'f'
  | 10 => some 'n'
  | 13 => some 'r'
  | 9 => some 't'
  | 11 => some 'v'
  | _ => none

/-- A character inside the quotes `mark`. -/
def escapeChar (mark : Char) (c : Char) : Text :=
  if c == mark || c.toNat == 92 then
    backslash :: ofChar c
  else if isPrintable c then
    ofChar c
  else
    match controlLetter? c.toNat with
    | some l => backslash :: ofChar l
    | none =>
      if c.toNat < 32 || c.toNat == 127 then "\\x" ++ hex 2 c.toNat
      else if c.toNat < 0x10000 then "\\u" ++ hex 4 c.toNat
      else "\\U" ++ hex 8 c.toNat

/-- An atom inside the quotes `mark`. -/
def escapeAtom (mark : Char) : Atom → Text
  | .char c => escapeChar mark c
  | .stray b => "\\x" ++ hex 2 b.toNat

/-- A text between double quotes. -/
def quoted (t : Text) : Text :=
  "\"" ++ t.atoms.flatMap (escapeAtom '"') ++ "\""

/-- The character with the number of a byte, between single quotes. -/
def quotedByte (b : UInt8) : Text :=
  "'" ++ escapeChar (Char.ofNat 39) (Char.ofNat b.toNat) ++ "'"

end RobotMaze.Text

/-!
# Byte text

Sources, names and messages are byte strings: lengths and columns count bytes, and a source may hold
bytes that are no UTF-8 at all.

* `utf8` gives the bytes of a string, and a string stands for them wherever a text is expected;
* `Text.splitOn` and `Text.join` cut a text at a byte and put texts together.
-/

namespace RobotMaze

/-- A byte string. -/
abbrev Text := List UInt8

/-- The UTF-8 bytes of a string. -/
def utf8 (s : String) : Text := s.toUTF8.data.toList

instance : Coe String Text := ⟨utf8⟩

namespace Text

/-! ## Bytes -/

/-- The line feed byte. -/
def lineFeed : UInt8 := 10

/-- The carriage return byte. -/
def carriageReturn : UInt8 := 13

/-- The space byte. -/
def space : UInt8 := 32

/-- The tab byte. -/
def tab : UInt8 := 9

/-- Whether `b` is an ASCII letter. -/
def isAsciiLetter (b : UInt8) : Bool :=
  (65 ≤ b && b ≤ 90) || (97 ≤ b && b ≤ 122)

/-- Whether `b` is an ASCII digit. -/
def isAsciiDigit (b : UInt8) : Bool :=
  48 ≤ b && b ≤ 57

/-! ## Numbers and truth values -/

/-- The decimal digits of `n`, with a sign if it is negative. -/
def ofInt (n : Int) : Text := utf8 (toString n)

/-- The decimal digits of `n`. -/
def ofNat (n : Nat) : Text := utf8 (toString n)

/-- `true` or `false`. -/
def ofBool (b : Bool) : Text := if b then "true" else "false"

/-- `n` in decimal, filled with spaces on the left up to `width` bytes. -/
def padded (width : Nat) (n : Int) : Text :=
  let digits := ofInt n
  List.replicate (width - digits.length) space ++ digits

/-! ## Cutting and joining -/

/-- The pieces of a text between the bytes equal to `sep`; the empty text has one empty piece. -/
def splitOn (sep : UInt8) : Text → List Text
  | [] => [[]]
  | b :: rest =>
    if b = sep then
      [] :: splitOn sep rest
    else
      match splitOn sep rest with
      | [] => [[b]]
      | piece :: pieces => (b :: piece) :: pieces

/-- The texts one after another with `sep` between neighbours. -/
def join (sep : Text) : List Text → Text
  | [] => []
  | [t] => t
  | t :: ts => t ++ sep ++ join sep ts

/-- The text without its last byte if that byte is `b`. -/
def dropLast? (b : UInt8) (t : Text) : Text :=
  if t.getLast? = some b then t.dropLast else t

/-- Whether `part` stands somewhere in the text. -/
def hasPart (part : Text) : Text → Bool
  | [] => part.isEmpty
  | b :: rest => part.isPrefixOf (b :: rest) || hasPart part rest

/-- Whether `a` comes strictly before `b` in byte order. -/
def before (a b : Text) : Bool := decide (a < b)

end Text

end RobotMaze

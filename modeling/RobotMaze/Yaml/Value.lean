import RobotMaze.Number.Rounded
import RobotMaze.Text.Base64
import RobotMaze.Text.Numeral
import RobotMaze.Yaml.Problem
import RobotMaze.Yaml.Timestamp

/-!
# Values of YAML scalars

A plain scalar is null, a truth value, a number, a timestamp or a string by its spelling.  A scalar
with a tag has to be spelled as the tag says.
-/

namespace RobotMaze.Yaml

/-- A number with a point or an exponent. -/
inductive Floating where
  | nan
  | infinite (negative : Bool)
  | finite (negative : Bool) (size : Rounded)
  deriving DecidableEq, Repr

/-- The value of a scalar. -/
inductive Value where
  | null
  | bool (b : Bool)
  | int (n : Int)
  | float (f : Floating)
  | timestamp
  | text (t : Text)
  deriving DecidableEq, Repr

/-! ## Numbers -/

/-- The value of decimal digits. -/
def digits (t : Text) : Nat := t.foldl (fun n b => n * 10 + (b.toNat - 48)) 0

/-- The exponent that a text is; the empty text is the exponent zero. -/
def exponent? : Text → Option Int
  | [] => some 0
  | b :: rest =>
    let (negative, number) := Numeral.splitSign rest
    if (b == 69 || b == 101) && !number.isEmpty && number.all Text.isAsciiDigit then
      some (if negative then -(digits number : Int) else digits number)
    else none

/-- The number that a decimal text stands for, perhaps with a point and an exponent; there is none
if it is too large. -/
def decimal? (t : Text) : Option Floating := do
  let (negative, number) := Numeral.splitSign t
  let whole := number.takeWhile Text.isAsciiDigit
  let (fraction, behind) : Text × Text :=
    match number.dropWhile Text.isAsciiDigit with
    | 46 :: rest => (rest.takeWhile Text.isAsciiDigit, rest.dropWhile Text.isAsciiDigit)
    | rest => ([], rest)
  guard (!(whole.isEmpty && fraction.isEmpty))
  let exponent ← exponent? behind
  let size ← Rounded.ofDecimal? (digits (whole ++ fraction)) (exponent - fraction.length)
  return .finite negative size

/-- Whether every underscore of a text stands between two digits. -/
def underscoresFit : (afterDigit : Bool) → Text → Bool
  | _, [] => true
  | afterDigit, b :: rest =>
    if b = Numeral.underscore then
      afterDigit && (rest.head?.any Text.isAsciiDigit) && underscoresFit false rest
    else underscoresFit (Text.isAsciiDigit b) rest

/-- The text with its underscores left out. -/
def bare (t : Text) : Text := t.filter fun b => b != Numeral.underscore

/-- The integer that a text without underscores stands for: up to `2^64` without sign, or a signed
one of 64 bits.  A sign may also stand between the mark of base two or eight and the digits. -/
def integer? (t : Text) : Option Int :=
  match Numeral.signed t, Numeral.unsigned t with
  | .ok n, _ => some n
  | _, .ok n => some n
  | _, _ =>
    match t with
    | 48 :: 98 :: rest => Numeral.signedIn? 2 rest
    | 48 :: 111 :: rest => Numeral.signedIn? 8 rest
    | 45 :: 48 :: 98 :: rest => Numeral.signedIn? 2 (45 :: rest)
    | 45 :: 48 :: 111 :: rest => Numeral.signedIn? 8 (45 :: rest)
    | _ => none

/-! ## Spellings -/

/-- The values that are spelled as words. -/
def words : List (String × Value) :=
  [("", .null), ("~", .null), ("null", .null), ("Null", .null), ("NULL", .null),
   ("true", .bool true), ("True", .bool true), ("TRUE", .bool true),
   ("false", .bool false), ("False", .bool false), ("FALSE", .bool false),
   (".nan", .float .nan), (".NaN", .float .nan), (".NAN", .float .nan),
   (".inf", .float (.infinite false)), (".Inf", .float (.infinite false)),
   (".INF", .float (.infinite false)), ("+.inf", .float (.infinite false)),
   ("+.Inf", .float (.infinite false)), ("+.INF", .float (.infinite false)),
   ("-.inf", .float (.infinite true)), ("-.Inf", .float (.infinite true)),
   ("-.INF", .float (.infinite true))]

namespace Value

/-- The value of a text that starts with a digit or a sign. -/
def ofNumber (t : Text) : Value :=
  match integer? (bare t), decimal? (bare t) with
  | some n, _ => .int n
  | none, some f => .float f
  | none, none => .text t

/-- The value that a spelling stands for; `dates` says whether it may be a timestamp. -/
def ofSpelling (dates : Bool) (t : Text) : Value :=
  match words.find? fun w => utf8 w.1 == t, t with
  | some w, _ => w.2
  | none, [] => .null
  | none, b :: _ =>
    if b = 46 then
      match decimal? (bare t) with
      | some f => if underscoresFit false t then .float f else .text t
      | none => .text t
    else if Text.isAsciiDigit b || b = 43 || b = 45 then
      if dates && Timestamp.matchesText t then .timestamp else ofNumber t
    else .text t

/-- The tag of a value. -/
def tag : Value → Tag
  | null => .null
  | bool _ => .bool
  | int _ => .int
  | float _ => .float
  | timestamp => .timestamp
  | text _ => .string

/-- The value of a scalar with a tag, which has to be spelled as the tag says.  A signed integer may
have the tag of numbers with a point. -/
def ofTagged (tag : Tag) (t : Text) : Except Problem Value :=
  let value := ofSpelling (tag = .timestamp) t
  match tag with
  | .null | .bool | .int | .timestamp =>
    if value.tag = tag then .ok value else .error (.otherSpelling value.tag t tag)
  | .float =>
    match value with
    | .float _ => .ok value
    | .int n =>
      if n < Numeral.signedBound then .ok (.float (.finite (n < 0) (Rounded.ofNat n.natAbs)))
      else .error (.otherSpelling .int t tag)
    | _ => .error (.otherSpelling value.tag t tag)
  | .binary =>
    match Text.ofBase64? t with
    | some data => .ok (.text data)
    | none => .error .noBase64
  | .string | .merge | .sequence | .mapping | .other _ => .ok (.text t)

/-- The integer of 64 bits that a number is.  What stands behind a point is cut off, and numbers
below the least integer become the least, as does `2^63` with a point. -/
def toInt? : Value → Option Int
  | int n => if n < Numeral.signedBound then some n else none
  | float (.finite true size) => some (max (-(size.floor : Int)) (-(Numeral.signedBound : Int)))
  | float (.finite false size) =>
    if size.floor < Numeral.signedBound then some size.floor
    else if size.floor = Numeral.signedBound then some (-(Numeral.signedBound : Int))
    else none
  | float (.infinite true) => some (-(Numeral.signedBound : Int))
  | _ => none

end Value

end RobotMaze.Yaml

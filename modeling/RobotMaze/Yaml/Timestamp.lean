import RobotMaze.Text

/-!
# Timestamps

A timestamp is a day, such as `2024-5-17`, or a day with a time, such as `2024-05-17 12:30:00` or
`2024-05-17T12:30:00.5+02:00`.  Only the year needs all its digits.
-/

namespace RobotMaze.Yaml.Timestamp

/-- The text behind a given byte, if it starts with that byte. -/
def behind? (b : UInt8) : Text → Option Text
  | [] => none
  | c :: rest => if c = b then some rest else none

/-- The number of one or two digits at the front of a text, and the text behind it. -/
def number? : Text → Option (Nat × Text)
  | [] => none
  | a :: rest =>
    if Text.isAsciiDigit a then
      match rest with
      | b :: more =>
        if Text.isAsciiDigit b then some ((a.toNat - 48) * 10 + (b.toNat - 48), more)
        else some (a.toNat - 48, rest)
      | [] => some (a.toNat - 48, [])
    else none

/-- The number of two digits. -/
def pair? (a b : UInt8) : Option Nat :=
  if Text.isAsciiDigit a && Text.isAsciiDigit b then
    some ((a.toNat - 48) * 10 + (b.toNat - 48))
  else none

/-- Whether a year has a leap day. -/
def isLeap (year : Nat) : Bool :=
  year % 4 == 0 && (year % 100 != 0 || year % 400 == 0)

/-- The number of days of a month. -/
def daysOf (year month : Nat) : Nat :=
  if month = 2 then (if isLeap year then 29 else 28)
  else if month = 4 || month = 6 || month = 9 || month = 11 then 30
  else 31

/-- The text behind the day at the front of a text. -/
def day? (t : Text) : Option Text := do
  let year := t.takeWhile Text.isAsciiDigit
  guard (year.length = 4)
  let (month, rest) ← number? (← behind? 45 (t.drop 4))
  guard (1 ≤ month && month ≤ 12)
  let (day, rest) ← number? (← behind? 45 rest)
  let yearNumber := year.foldl (fun n b => n * 10 + (b.toNat - 48)) 0
  guard (1 ≤ day && day ≤ daysOf yearNumber month)
  return rest

/-- The text behind a fraction of a second; the fraction may be missing. -/
def dropFraction : Text → Text
  | b :: c :: rest =>
    if (b = 46 || b = 44) && Text.isAsciiDigit c then rest.dropWhile Text.isAsciiDigit
    else b :: c :: rest
  | t => t

/-- The text behind the time of day at the front of a text. -/
def clock? (t : Text) : Option Text := do
  let (hour, rest) ← number? t
  let (minute, rest) ← number? (← behind? 58 rest)
  let (second, rest) ← number? (← behind? 58 rest)
  guard (hour < 24 && minute < 60 && second < 60)
  return dropFraction rest

/-- Whether a text is a time zone: `Z`, or hours and minutes with a sign. -/
def isZone : Text → Bool
  | [90] => true
  | [sign, a, b, 58, c, d] =>
    (sign = 43 || sign = 45) &&
      match pair? a b, pair? c d with
      | some hours, some minutes => hours ≤ 24 && minutes ≤ 60
      | _, _ => false
  | _ => false

/-- Whether a text is a timestamp. -/
def matchesText (t : Text) : Bool :=
  match day? t with
  | none => false
  | some [] => true
  | some (b :: rest) =>
    if b = 84 || b = 116 then
      match clock? rest with
      | some zone => isZone zone
      | none => false
    else if b = 32 then clock? (rest.dropWhile (· == 32)) = some []
    else false

end RobotMaze.Yaml.Timestamp

import ServiceCall.Text.Digits

/-!
# Dates and times in TOML

A date, a time of day, or both, with an offset if both are there. Their text is canonical: a `T`
between date and time, at most nine decimals of a second and no zeros behind them.
-/

namespace ServiceCall.Toml

/-- A day of the calendar. -/
structure Day where
  year : Nat
  month : Nat
  day : Nat
deriving DecidableEq, Repr

/-- A time of day, with its fraction of a second in nanoseconds. -/
structure DayTime where
  hour : Nat
  minute : Nat
  second : Nat
  nanos : Nat
deriving DecidableEq, Repr

/-- The distance from universal time. -/
inductive Offset where
  | universal
  | minutes (behind : Bool) (n : Nat)
deriving DecidableEq, Repr

/-- A date, a time, or both. -/
structure Moment where
  day : Option Day := none
  time : Option DayTime := none
  offset : Option Offset := none
deriving DecidableEq, Repr

namespace Day

/-- Leap years: every fourth, but of the full centuries only every fourth. -/
def isLeap (year : Nat) : Bool := year % 4 == 0 && (year % 100 != 0 || year % 400 == 0)

/-- The number of days of a month. -/
def monthLength (year month : Nat) : Nat :=
  if month == 2 then (if isLeap year then 29 else 28)
  else if [4, 6, 9, 11].contains month then 30
  else 31

/-- Year, month and day with dashes between them. -/
def chars (d : Day) : List Char :=
  paddedDigits 4 d.year ++ '-' :: paddedDigits 2 d.month ++ '-' :: paddedDigits 2 d.day

end Day

namespace DayTime

/-- The decimals of a second, without zeros at the end. -/
def fractionChars (nanos : Nat) : List Char :=
  if nanos = 0 then []
  else '.' :: ((paddedDigits 9 nanos).reverse.dropWhile (· == '0')).reverse

/-- Hour, minute and second with colons between them, and the decimals of the second. -/
def chars (t : DayTime) : List Char :=
  paddedDigits 2 t.hour ++ ':' :: paddedDigits 2 t.minute ++ ':' :: paddedDigits 2 t.second
    ++ fractionChars t.nanos

end DayTime

namespace Offset

/-- A `Z`, or a sign, hours and minutes. No distance has a plus sign. -/
def chars : Offset → List Char
  | .universal => ['Z']
  | .minutes behind n =>
    (if behind && n != 0 then '-' else '+') :: paddedDigits 2 (n / 60) ++ ':' :: paddedDigits 2 (n % 60)

end Offset

namespace Moment

/-- The canonical text. -/
def chars (m : Moment) : List Char :=
  let day := (m.day.map Day.chars).getD []
  let time := (m.time.map DayTime.chars).getD []
  let mark := if m.day.isSome && m.time.isSome then ['T'] else []
  day ++ mark ++ time ++ (m.offset.map Offset.chars).getD []

/-- Two digits with a value in bounds, and what follows them. -/
def twoDigits? (least most : Nat) : List Char → Option (Nat × List Char)
  | a :: b :: rest =>
    let n := 10 * (a.toNat - '0'.toNat) + (b.toNat - '0'.toNat)
    if a.isDigit && b.isDigit && least ≤ n && n ≤ most then some (n, rest) else none
  | _ => none

/-- What follows a character, if the text starts with it. -/
def after? (mark : Char) : List Char → Option (List Char)
  | c :: rest => if c == mark then some rest else none
  | [] => none

/-- Four digits and a dash: a date starts here. -/
def startsDay : List Char → Bool
  | a :: b :: c :: d :: '-' :: _ => [a, b, c, d].all Char.isDigit
  | _ => false

/-- Two digits and a colon: a time of day starts here. -/
def startsTime : List Char → Bool
  | a :: b :: ':' :: _ => a.isDigit && b.isDigit
  | _ => false

/-- A date, and what follows it. -/
def day? (cs : List Char) : Option (Day × List Char) := do
  let (century, rest) ← twoDigits? 0 99 cs
  let (year, rest) ← twoDigits? 0 99 rest
  let year := 100 * century + year
  let rest ← after? '-' rest
  let (month, rest) ← twoDigits? 1 12 rest
  let rest ← after? '-' rest
  let (day, rest) ← twoDigits? 1 (Day.monthLength year month) rest
  return (⟨year, month, day⟩, rest)

/-- Decimals of a second in nanoseconds; further digits are dropped. -/
def nanos (digits : List Char) : Nat :=
  (digits.take 9).foldl (fun n c => 10 * n + (c.toNat - '0'.toNat)) 0 * 10 ^ (9 - (digits.take 9).length)

/-- Decimals of a second behind a point, and what follows them. -/
def fraction? : List Char → Option (Nat × List Char)
  | '.' :: rest =>
    match rest.takeWhile Char.isDigit with
    | [] => none
    | digits => some (nanos digits, rest.dropWhile Char.isDigit)
  | cs => some (0, cs)

/-- A time of day, and what follows it. -/
def time? (cs : List Char) : Option (DayTime × List Char) := do
  let (hour, rest) ← twoDigits? 0 23 cs
  let rest ← after? ':' rest
  let (minute, rest) ← twoDigits? 0 59 rest
  let rest ← after? ':' rest
  let (second, rest) ← twoDigits? 0 60 rest
  let (nanos, rest) ← fraction? rest
  return (⟨hour, minute, second, nanos⟩, rest)

/-- An offset if there is one, and what follows. -/
def offset? : List Char → Option (Option Offset × List Char)
  | [] => some (none, [])
  | c :: rest =>
    if c == 'Z' || c == 'z' then some (some .universal, rest)
    else if c == '+' || c == '-' then do
      let (hours, rest) ← twoDigits? 0 23 rest
      let rest ← after? ':' rest
      let (minutes, rest) ← twoDigits? 0 59 rest
      return (some (.minutes (c == '-') (60 * hours + minutes)), rest)
    else some (none, c :: rest)

/-- Whether the time of a date follows: a mark or a blank, then a time. -/
def timeFollows : List Char → Bool
  | c :: rest => (c == 'T' || c == 't' || c == ' ') && startsTime rest
  | [] => false

/-- A moment that starts with a date, and what follows it. -/
def dated? (cs : List Char) : Option (Moment × List Char) := do
  let (day, rest) ← day? cs
  if timeFollows rest then
    let (time, rest) ← time? (rest.drop 1)
    let (offset, rest) ← offset? rest
    return ({ day := some day, time := some time, offset }, rest)
  else return ({ day := some day }, rest)

end Moment

end ServiceCall.Toml

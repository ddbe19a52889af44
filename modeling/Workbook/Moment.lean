import Workbook.Text.Blank
import Workbook.Text.Numeral

/-!
# Dates and times

Reading a date, a time or both from a text, their order, and the formula that denotes them. A date is
`year-month-day`, a time `hour:minute` with or without `:second`, and a `T` or a blank stands between
the two. Numbers may have blanks in front and need no leading zeros; a year with a sign may have more than
four digits. Second 60 is a leap second: it comes after second 59, and formulas show it as second 59.
-/

namespace Workbook

open Text

/-- A day of the Gregorian calendar. -/
structure Day where
  year : Int
  month : Nat
  day : Nat
deriving DecidableEq, Repr

/-- A time of a day. -/
structure Clock where
  hour : Nat
  minute : Nat
  /-- From 0 to 60. -/
  second : Nat
deriving DecidableEq, Repr

/-- A date, a time, or both. -/
inductive Moment where
  | day (d : Day)
  | clock (c : Clock)
  | both (d : Day) (c : Clock)
deriving DecidableEq, Repr

namespace Day

/-- A year with 29 days in February. -/
def isLeap (year : Int) : Bool := (year % 4 == 0 && year % 100 != 0) || year % 400 == 0

/-- The days of a month. -/
def monthLength (year : Int) (month : Nat) : Nat :=
  if month = 2 then (if isLeap year then 29 else 28)
  else if month = 4 || month = 6 || month = 9 || month = 11 then 30
  else 31

/-- The first year. -/
def firstYear : Int := -262143

/-- The last year. -/
def lastYear : Int := 262142

/-- A day that exists, in the range of years. -/
def ofParts? (year : Int) (month day : Nat) : Option Day :=
  if firstYear ≤ year && year ≤ lastYear && 1 ≤ month && month ≤ 12 && 1 ≤ day &&
      day ≤ monthLength year month then
    some ⟨year, month, day⟩
  else none

end Day

/-- A time that exists, leap seconds included. -/
def Clock.ofParts? (hour minute second : Nat) : Option Clock :=
  if hour ≤ 23 && minute ≤ 59 && second ≤ 60 then some ⟨hour, minute, second⟩ else none

/-! ## Reading -/

/-- A number of one up to some digits, and what follows it. Blanks may stand in front. -/
def readNumber (width : Nat) (cs : List Char) : Option (Nat × List Char) :=
  let cs := cs.dropWhile isBlank
  let digits := (cs.take width).takeWhile isDigit
  if digits.isEmpty then none else some (readDecimal digits, cs.drop digits.length)

/-- A year: up to four digits, or a sign and any number of digits. -/
def readYear (cs : List Char) : Option (Int × List Char) :=
  match cs.dropWhile isBlank with
  | '-' :: rest =>
    let digits := rest.takeWhile isDigit
    if digits.isEmpty then none else some (-(readDecimal digits : Int), rest.drop digits.length)
  | '+' :: rest =>
    let digits := rest.takeWhile isDigit
    if digits.isEmpty then none else some ((readDecimal digits : Int), rest.drop digits.length)
  | cs => (readNumber 4 cs).map fun (n, rest) => ((n : Int), rest)

/-- What follows an expected character. -/
def expect (c : Char) : List Char → Option (List Char)
  | d :: rest => if d = c then some rest else none
  | [] => none

/-- The end of a text. -/
def atEnd : List Char → Option Unit
  | [] => some ()
  | _ :: _ => none

/-- A date, up to the end. -/
def readDay (cs : List Char) : Option Day := do
  let (year, cs) ← readYear cs
  let cs ← expect '-' cs
  let (month, cs) ← readNumber 2 cs
  let cs ← expect '-' cs
  let (day, cs) ← readNumber 2 cs
  atEnd cs
  Day.ofParts? year month day

/-- A time with seconds, up to the end. -/
def readLongClock (cs : List Char) : Option Clock := do
  let (hour, cs) ← readNumber 2 cs
  let cs ← expect ':' cs
  let (minute, cs) ← readNumber 2 cs
  let cs ← expect ':' cs
  let (second, cs) ← readNumber 2 cs
  atEnd cs
  Clock.ofParts? hour minute second

/-- A time without seconds, up to the end. -/
def readShortClock (cs : List Char) : Option Clock := do
  let (hour, cs) ← readNumber 2 cs
  let cs ← expect ':' cs
  let (minute, cs) ← readNumber 2 cs
  atEnd cs
  Clock.ofParts? hour minute 0

/-- A time with or without seconds, up to the end. -/
def readClock (cs : List Char) : Option Clock := (readLongClock cs).or (readShortClock cs)

namespace Moment

/-- The character between a date and a time. -/
def isDivider (c : Char) : Bool := c == 'T' || c == ' '

/-- Read a date, a time or both. The first divider, if there is one, ends the date. -/
def ofChars? (cs : List Char) : Option Moment :=
  let cs := trim cs
  let date := cs.takeWhile (!isDivider ·)
  match cs.drop date.length with
  | _ :: time => do
    let d ← readDay date
    let c ← readClock time
    return .both d c
  | [] => ((readDay cs).map .day).or ((readClock cs).map .clock)

/-- Read a date, a time or both. -/
def ofText? (s : String) : Option Moment := ofChars? s.toList

/-- The point in time by which moments are ordered: a day starts at midnight, and a bare time belongs to
the first day of all. -/
def instant : Moment → Day × Clock
  | .day d => (d, ⟨0, 0, 0⟩)
  | .clock c => (⟨Day.firstYear, 1, 1⟩, c)
  | .both d c => (d, c)

/-- The parts of an instant, the most significant first. -/
def parts (m : Moment) : List Int :=
  let (d, c) := m.instant
  [d.year, d.month, d.day, c.hour, c.minute, c.second]

/-- The order of instants. -/
def compare (a b : Moment) : Ordering := compareOfLessAndEq a.parts b.parts

/-! ## Writing -/

/-- The formula of a day. -/
def dayFormula (d : Day) : String :=
  "DATE(" ++ toString d.year ++ "," ++ toString d.month ++ "," ++ toString d.day ++ ")"

/-- The formula of a time. A leap second is shown as the second before it. -/
def clockFormula (c : Clock) : String :=
  "TIME(" ++ toString c.hour ++ "," ++ toString c.minute ++ "," ++ toString (min c.second 59) ++ ")"

/-- The formula of a moment. -/
def formula : Moment → String
  | .day d => dayFormula d
  | .clock c => clockFormula c
  | .both d c => dayFormula d ++ "+" ++ clockFormula c

/-- A year of four digits, with its sign outside the years from 0 to 9999. -/
def yearText (year : Int) : String :=
  let digits := String.ofList (paddedDecimal 4 year.natAbs)
  if year < 0 then "-" ++ digits else if 9999 < year then "+" ++ digits else digits

/-- Two digits. -/
def twoDigits (n : Nat) : String := String.ofList (paddedDecimal 2 n)

/-- The instant as a text. -/
def instantText (m : Moment) : String :=
  let (d, c) := m.instant
  yearText d.year ++ "-" ++ twoDigits d.month ++ "-" ++ twoDigits d.day ++ " " ++
    twoDigits c.hour ++ ":" ++ twoDigits c.minute ++ ":" ++ twoDigits c.second

end Moment

end Workbook

/-!
# Temporal formats

Declared formats of dates and times and their format codes. A literal character that could be read as a
code is written with a backslash.
-/

namespace Workbook

/-- A part of a date or a time. -/
inductive TemporalUnit where
  | year
  | month
  | monthName
  | weekday
  | day
  | hour
  | minute
  | second
  | meridiem
deriving DecidableEq, Repr

/-- The short or the long form of a part. -/
inductive UnitLength where
  | short
  | long
deriving DecidableEq, Repr

/-- One part of a declared format. -/
inductive TemporalPart where
  | literal (text : String)
  | unit (unit : TemporalUnit) (length : UnitLength)
deriving DecidableEq, Repr

/-- A declared format of dates and times. -/
abbrev TemporalFormat := List TemporalPart

/-- The token of a part in a format code. -/
def TemporalUnit.token : TemporalUnit → UnitLength → String
  | .year, .short => "yy"
  | .year, .long => "yyyy"
  | .month, .short => "m"
  | .month, .long => "mm"
  | .monthName, .short => "mmm"
  | .monthName, .long => "mmmm"
  | .weekday, .short => "ddd"
  | .weekday, .long => "dddd"
  | .day, .short => "d"
  | .day, .long => "dd"
  | .hour, .short => "h"
  | .hour, .long => "hh"
  | .minute, .short => "m"
  | .minute, .long => "mm"
  | .second, .short => "s"
  | .second, .long => "ss"
  | .meridiem, .short => "A/P"
  | .meridiem, .long => "AM/PM"

namespace TemporalFormat

/-- The separators that a format code shows as they are. -/
def isSeparator (c : Char) : Bool :=
  c == ' ' || c == '-' || c == '/' || c == ':' || c == '.' || c == ',' || c == '(' || c == ')'

/-- One literal character of a format code. -/
def literalChar (c : Char) : List Char := if isSeparator c then [c] else ['\\', c]

/-- The format code of a part. -/
def partCode : TemporalPart → List Char
  | .literal text => text.toList.flatMap literalChar
  | .unit unit length => (unit.token length).toList

/-- The format code. -/
def code (f : List TemporalPart) : List Char := f.flatMap partCode

/-- The format code as a text. -/
def pattern (f : List TemporalPart) : String := String.ofList (code f)

/-- The long form of a part. -/
def long (unit : TemporalUnit) : TemporalPart := .unit unit .long

/-- Year, month and day. -/
def date : List TemporalPart := [long .year, .literal "-", long .month, .literal "-", long .day]

/-- Hour and minute. -/
def clock : List TemporalPart := [long .hour, .literal ":", long .minute]

/-- Hour, minute and second. -/
def time : List TemporalPart := clock ++ [.literal ":", long .second]

/-- The formats that have a name without any definition. -/
def standard : List (String × List TemporalPart) :=
  [("date", date),
    ("time", time),
    ("datetime", date ++ .literal " " :: clock),
    ("iso", date ++ .literal "T" :: time)]

/-- The standard format of a name. -/
def standard? (name : String) : Option TemporalFormat := standard.lookup name

end TemporalFormat

end Workbook

/-!
# Numerals

Reading and writing whole numbers as digits. Reading takes ASCII digits only; the writers never pad
unless their name says so.
-/

namespace Workbook.Text

/-- One of the ten ASCII digits. -/
def isDigit (c : Char) : Bool := '0' ≤ c && c ≤ '9'

/-- The value of an ASCII digit. -/
def digitValue (c : Char) : Nat := c.toNat - 48

/-- The number that decimal digits spell, the first digit being the most significant. -/
def readDecimal (ds : List Char) : Nat := ds.foldl (fun n c => 10 * n + digitValue c) 0

/-- The number that a nonempty run of ASCII digits spells. -/
def decimal? (ds : List Char) : Option Nat :=
  if !ds.isEmpty && ds.all isDigit then some (readDecimal ds) else none

/-- The value of an ASCII hexadecimal digit of either case. -/
def hexValue? (c : Char) : Option Nat :=
  if isDigit c then some (c.toNat - 48)
  else if 'a' ≤ c && c ≤ 'f' then some (c.toNat - 87)
  else if 'A' ≤ c && c ≤ 'F' then some (c.toNat - 55)
  else none

/-- The number that hexadecimal digits spell, if all of them are digits. -/
def readHex? (ds : List Char) : Option Nat :=
  ds.foldlM (fun n c => (hexValue? c).map (16 * n + ·)) 0

/-- Lower-case hexadecimal digits without leading zeros. -/
def lowerHex (n : Nat) : List Char := Nat.toDigits 16 n

/-- The upper-case hexadecimal digit of a value below sixteen. -/
def upperHexDigit (n : Nat) : Char := if n < 10 then Char.ofNat (48 + n) else Char.ofNat (55 + n)

/-- Two upper-case hexadecimal digits of a byte. -/
def upperHexByte (b : UInt8) : List Char :=
  [upperHexDigit (b.toNat / 16), upperHexDigit (b.toNat % 16)]

/-- Decimal digits, with zeros in front up to the given width. -/
def paddedDecimal (width n : Nat) : List Char :=
  let ds := Nat.toDigits 10 n
  List.replicate (width - ds.length) '0' ++ ds

end Workbook.Text

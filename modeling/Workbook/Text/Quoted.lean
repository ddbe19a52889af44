import Workbook.Text.Numeral
import Workbook.Text.Spelled

/-!
# Quoted texts

A text between double quotes, as messages show it. Quotes and backslashes get a backslash, tab, line
feed, carriage return and the zero character their letter, and every other character without a printed
form of its own is spelled by its code.
-/

namespace Workbook.Text

/-- A character that quoting spells by its code. -/
def isSpelled (c : Char) : Bool :=
  let n := c.toNat
  n < 0x20 || spelledRanges.any fun (lo, hi) => lo ≤ n && n ≤ hi

/-- One character of a quoted text. -/
def quotedChar (c : Char) : List Char :=
  if c = '"' then ['\\', '"']
  else if c = '\\' then ['\\', '\\']
  else if c = '\t' then ['\\', 't']
  else if c = '\n' then ['\\', 'n']
  else if c = '\r' then ['\\', 'r']
  else if c.toNat = 0 then ['\\', '0']
  else if isSpelled c then ['\\', 'u', '\x7b'] ++ lowerHex c.toNat ++ ['\x7d']
  else [c]

/-- The text between double quotes. -/
def quoted (s : String) : String :=
  String.ofList ('"' :: s.toList.flatMap quotedChar ++ ['"'])

end Workbook.Text

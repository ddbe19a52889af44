import Workbook.Text.Blank
import Workbook.Text.Numeral

/-!
# Colors

A color is three bytes. It is written as `#` and six upper-case hexadecimal digits, and read from `#` and
three, six or eight digits of either case: three digits are doubled, and of eight the first two, the
opacity, are dropped. So every color has one written form, which reads back as the color.
-/

namespace Workbook

open Text

/-- A color as its red, green and blue bytes. -/
structure Color where
  red : UInt8
  green : UInt8
  blue : UInt8
deriving DecidableEq, Repr

namespace Color

/-- The written form. -/
def chars (c : Color) : List Char :=
  '#' :: upperHexByte c.red ++ upperHexByte c.green ++ upperHexByte c.blue

/-- The written form as a text. -/
def text (c : Color) : String := String.ofList c.chars

/-- The color whose bytes are the low three bytes of a number. -/
def ofNat (n : Nat) : Color :=
  ⟨UInt8.ofNat (n / 0x10000), UInt8.ofNat (n / 0x100), UInt8.ofNat n⟩

/-- The six digits that a run of hexadecimal digits stands for. -/
def sixDigits? : List Char → Option (List Char)
  | [r, g, b] => some [r, r, g, g, b, b]
  | [r, r', g, g', b, b'] => some [r, r', g, g', b, b']
  | [_, _, r, r', g, g', b, b'] => some [r, r', g, g', b, b']
  | _ => none

/-- Read the form with `#`, blanks around it allowed. -/
def ofChars? (cs : List Char) : Option Color :=
  match trim cs with
  | '#' :: digits => do
    let six ← sixDigits? digits
    let _ ← readHex? digits
    let n ← readHex? six
    return ofNat n
  | _ => none

/-- Read a color. -/
def ofText? (s : String) : Option Color := ofChars? s.toList

/-- The one written form of a color text. -/
def normalize? (s : String) : Option String := (ofText? s).map text

/-- Read the low three bytes of up to 32 bits of hexadecimal digits, after any number of `#` and one `+`.
Any other text is black. -/
def lenient (s : String) : Color :=
  let digits := s.toList.dropWhile (· == '#')
  let digits := match digits with
    | '+' :: rest => rest
    | _ => digits
  match digits, readHex? digits with
  | [], _ => ofNat 0
  | _, some n => if n < UInt32.size then ofNat n else ofNat 0
  | _, none => ofNat 0

end Color

end Workbook

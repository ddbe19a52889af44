import Workbook.Color.Tint

/-!
# The standard palette

Colors that have a name without any definition: the slots of the office theme and a few basic colors.
A name may carry a tint, `accent1+40` for 40 percent lighter or `accent1-25` for 25 percent darker.
-/

namespace Workbook.Palette

open Text

/-- The slots of the office theme in their order. -/
def themeColors : List (String × Nat) :=
  [("background1", 0xFFFFFF), ("text1", 0x000000), ("background2", 0xE7E6E6), ("text2", 0x44546A),
    ("accent1", 0x4472C4), ("accent2", 0xED7D31), ("accent3", 0xA5A5A5), ("accent4", 0xFFC000),
    ("accent5", 0x5B9BD5), ("accent6", 0x70AD47), ("hyperlink", 0x0563C1), ("followed", 0x954F72)]

/-- Basic colors by name. -/
def namedColors : List (String × Nat) :=
  [("black", 0x000000), ("white", 0xFFFFFF), ("red", 0xFF0000), ("lime", 0x00FF00),
    ("blue", 0x0000FF), ("yellow", 0xFFFF00), ("magenta", 0xFF00FF), ("cyan", 0x00FFFF),
    ("maroon", 0x800000), ("green", 0x008000), ("navy", 0x000080), ("olive", 0x808000),
    ("purple", 0x800080), ("teal", 0x008080), ("silver", 0xC0C0C0), ("gray", 0x808080),
    ("orange", 0xFF9900)]

/-- The color of a name without a tint, ASCII case ignored. -/
def base? (name : List Char) : Option Color :=
  let folded := String.ofList (name.map Char.toLower)
  ((themeColors ++ namedColors).lookup folded).map Color.ofNat

/-- A name cut at its last sign: the base, the sign and what follows. -/
def cut? (name : List Char) : Option (List Char × Char × List Char) :=
  let isSign (c : Char) : Bool := c == '+' || c == '-'
  let reversed := name.reverse
  match reversed.dropWhile (!isSign ·) with
  | [] => none
  | sign :: base => some (base.reverse, sign, (reversed.takeWhile (!isSign ·)).reverse)

/-- The part of a tint in percent, at most one hundred. -/
def percent? (digits : List Char) : Option Float := do
  let n ← decimal? digits
  if n ≤ 100 then some ((UInt8.ofNat n).toFloat / 100) else none

/-- The color of a name, tint included. -/
def color? (name : String) : Option Color :=
  match cut? name.toList with
  | none => base? name.toList
  | some (base, sign, digits) =>
    if base.isEmpty then none
    else do
      let amount ← percent? digits
      let color ← base? base
      return color.tinted (if sign = '-' then -amount else amount)

end Workbook.Palette

/-!
# Scaling a decimal significand

The value that a reader gives to `significand * 10 ^ exponent`. It is not the nearest binary64 number:
the significand is rounded first and then multiplied or divided once by a rounded power of ten, so two
roundings may add up. Powers of ten end at `10 ^ 308`; below that the quotient is formed in steps.
-/

namespace Workbook.Decimal

/-- The largest power of ten that is a finite number. -/
def greatestPower : Nat := 308

/-- The binary64 number nearest to a power of ten. -/
def powerOfTen (n : Nat) : Float := Float.ofScientific 1 false n

/-- Division by a power of ten in steps of the largest power. A significand below `2 ^ 64` is zero after
two such steps, so three suffice. -/
def scaleDown : Nat → Float → Nat → Float
  | 0, _, _ => 0
  | steps + 1, x, n =>
    if n ≤ greatestPower then x / powerOfTen n
    else if x == 0 then x
    else scaleDown steps (x / powerOfTen greatestPower) (n - greatestPower)

/-- The value of a significand below `2 ^ 64` times a power of ten, if it is finite. -/
def scale? (significand : Nat) (exponent : Int) : Option Float :=
  let x := (UInt64.ofNat significand).toFloat
  let y :=
    if exponent < 0 then scaleDown 4 x exponent.natAbs
    else if exponent.natAbs ≤ greatestPower then x * powerOfTen exponent.natAbs
    else if x == 0 then x
    else x / 0
  if y.isInf then none else some y

end Workbook.Decimal

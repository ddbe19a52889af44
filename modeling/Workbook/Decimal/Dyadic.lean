/-!
# Exact binary fractions

Every finite binary64 number is a signed whole number times a power of two. Sums, products and
remainders of such numbers are again of that kind, so they are formed exactly here and rounded once,
to the nearest binary64 number with ties to the even significand.
-/

namespace Workbook.Decimal

/-- The weight of the leading bit of a significand, `2 ^ 52`. The bits above it hold the exponent. -/
def leadingWeight : Nat := 0x10000000000000

/-- The weight of the sign bit, `2 ^ 63`. -/
def signWeight : Nat := 0x8000000000000000

/-- The exponent field of numbers that are not finite. -/
def specialField : Nat := 2047

/-- The number `± significand * 2 ^ exponent`. Zero keeps its sign. -/
structure Dyadic where
  /-- The sign bit. -/
  negative : Bool
  /-- The magnitude in units of the power of two. -/
  significand : Nat
  /-- The power of two. -/
  exponent : Int
deriving DecidableEq, Repr

namespace Dyadic

/-- The least exponent of a binary64 unit. -/
def leastExponent : Int := -1074

/-- The exact value of a finite number. -/
def ofFloat? (x : Float) : Option Dyadic :=
  let bits : Nat := x.toBits.toNat
  let negative := bits / signWeight == 1
  let field : Nat := bits / leadingWeight % 2048
  let fraction : Nat := bits % leadingWeight
  if field == specialField then none
  else if field == 0 then some ⟨negative, fraction, leastExponent⟩
  else some ⟨negative, leadingWeight + fraction, Int.ofNat field - 1075⟩

/-- The quotient by a power of two, rounded to the nearest whole number, ties to even. -/
def roundShift (n shift : Nat) : Nat :=
  let unit := Nat.pow 2 shift
  let q := n / unit
  let twice := 2 * (n % unit)
  if unit < twice || (twice == unit && q % 2 == 1) then q + 1 else q

/-- The bits of the nearest binary64 number, sign bit apart. A significand that rounds up to the next
power of two carries into the exponent field. -/
def magnitudeBits (d : Dyadic) : Nat :=
  if d.significand = 0 then 0
  else
    let unit := max (d.exponent + d.significand.log2 - 52) leastExponent
    let m :=
      if unit ≤ d.exponent then d.significand * Nat.pow 2 (d.exponent - unit).toNat
      else roundShift d.significand (unit - d.exponent).toNat
    if m < leadingWeight then m
    else min ((unit + 1075).toNat * leadingWeight + (m - leadingWeight)) (specialField * leadingWeight)

/-- The nearest binary64 number, ties to even; infinite beyond the largest finite number. -/
def toFloat (d : Dyadic) : Float :=
  Float.ofBits (UInt64.ofNat ((if d.negative then signWeight else 0) + d.magnitudeBits))

/-- The signed significand in the finer unit `2 ^ unit`. -/
def scaled (d : Dyadic) (unit : Int) : Int :=
  let n := d.significand * Nat.pow 2 (d.exponent - unit).toNat
  if d.negative then -(n : Int) else n

/-- The exact sum. A zero sum is negative only if both numbers are. -/
def add (a b : Dyadic) : Dyadic :=
  let unit := min a.exponent b.exponent
  let n := a.scaled unit + b.scaled unit
  ⟨n < 0 || (n == 0 && a.negative && b.negative), n.natAbs, unit⟩

/-- The exact product. -/
def mul (a b : Dyadic) : Dyadic :=
  ⟨a.negative != b.negative, a.significand * b.significand, a.exponent + b.exponent⟩

/-- The exact remainder of the division with quotient rounded toward zero; it has the sign of the
first number. -/
def rem (a b : Dyadic) : Dyadic :=
  let unit := min a.exponent b.exponent
  ⟨a.negative, (a.scaled unit).natAbs % (b.scaled unit).natAbs, unit⟩

end Dyadic

/-- The sum `x * y + z`, rounded once. -/
def fusedMulAdd (x y z : Float) : Float :=
  match Dyadic.ofFloat? x, Dyadic.ofFloat? y, Dyadic.ofFloat? z with
  | some a, some b, some c => ((a.mul b).add c).toFloat
  | _, _, _ => x * y + z

/-- The remainder of a finite number by a positive one, moved into the range from zero up to the
divisor. -/
def wrapped (x y : Float) : Float :=
  match Dyadic.ofFloat? x, Dyadic.ofFloat? y with
  | some a, some b =>
    let r := (a.rem b).toFloat
    if r < 0 then r + y else r
  | _, _ => x

end Workbook.Decimal

import Workbook.Decimal.Dyadic

/-!
# Shortest decimal texts

The decimal with the fewest digits among those that read back as a given binary64 number, and of these
the nearest. All comparisons are made between whole numbers. Two texts are written from it: the plain
one, always positional, and the tagged one, which shows by a point or an exponent that the number is
not a whole number of the reader. Where two decimals are equally near, the plain text takes the greater
and the tagged text the even one.
-/

namespace Workbook.Decimal

/-- The positive decimal `digits * 10 ^ exponent`, the digits most significant first. -/
structure Shortest where
  /-- Decimal digits without zeros at the end. -/
  digits : List Char
  /-- The power of ten of the last digit. -/
  exponent : Int
deriving DecidableEq, Repr

/-- The greatest power of ten that is not above `num / den`, both positive. -/
def powerBelow (num den : Nat) : Int :=
  if den ≤ num then ((Nat.toDigits 10 (num / den)).length : Int) - 1
  else -((Nat.toDigits 10 ((den + num - 1) / num - 1)).length : Int)

/-- The interval of reals that round to a positive number, as quarters of its unit, with the rule
whether the ends belong to it. The gap below a power of two is half the gap above it. -/
structure Neighbourhood where
  /-- Four times the significand. -/
  centre : Nat
  /-- The lower end in quarters. -/
  low : Nat
  /-- The upper end in quarters. -/
  high : Nat
  /-- The power of two of a quarter. -/
  exponent : Int
  /-- The ends belong to the interval. -/
  closed : Bool

/-- The neighbourhood of a positive finite number. -/
def Neighbourhood.of (d : Dyadic) : Neighbourhood :=
  let narrow := d.significand == leadingWeight && Dyadic.leastExponent < d.exponent
  { centre := 4 * d.significand
    low := 4 * d.significand - (if narrow then 1 else 2)
    high := 4 * d.significand + 2
    exponent := d.exponent - 2
    closed := d.significand % 2 == 0 }

/-- The choice between two decimals that are equally near. -/
inductive Tie where
  /-- The one whose last digit is even. -/
  | even
  /-- The greater one. -/
  | upward
deriving DecidableEq, Repr

/-- Whether a tie between `below` and its successor goes to `below`. -/
def Tie.keeps : Tie → Nat → Bool
  | .even, below => below % 2 == 0
  | .upward, _ => false

/-- The multiple of `10 ^ grid` in the neighbourhood that is nearest to its centre. -/
def Neighbourhood.onGrid? (n : Neighbourhood) (tie : Tie) (grid : Int) : Option Nat :=
  let a := Nat.pow 2 n.exponent.toNat * Nat.pow 10 (-grid).toNat
  let b := Nat.pow 10 grid.toNat * Nat.pow 2 (-n.exponent).toNat
  let inside (c : Nat) : Bool :=
    if n.closed then n.low * a ≤ c * b && c * b ≤ n.high * a
    else n.low * a < c * b && c * b < n.high * a
  let below := n.centre * a / b
  let above := below + 1
  match inside below, inside above with
  | false, false => none
  | true, false => some below
  | false, true => some above
  | true, true =>
    let down := n.centre * a - below * b
    let up := above * b - n.centre * a
    if down < up || (down == up && tie.keeps below) then some below else some above

/-- The first grid with a hit, from one digit up to seventeen. -/
def Neighbourhood.search (n : Neighbourhood) (tie : Tie) (power : Int) : List Nat → Nat × Int
  | [] => (0, 0)
  | count :: more =>
    let grid := power - count
    match n.onGrid? tie grid with
    | some c => (c, grid)
    | none => n.search tie power more

/-- The shortest decimal of a positive finite number. -/
def shortest (tie : Tie) (d : Dyadic) : Shortest :=
  let num := d.significand * Nat.pow 2 d.exponent.toNat
  let den := Nat.pow 2 (-d.exponent).toNat
  let (c, grid) := (Neighbourhood.of d).search tie (powerBelow num den) (List.range 17)
  let reversed := (Nat.toDigits 10 c).reverse
  let zeros := reversed.takeWhile (· == '0')
  ⟨(reversed.drop zeros.length).reverse, grid + zeros.length⟩

/-- The power of ten of the first digit. -/
def Shortest.magnitude (s : Shortest) : Int := s.exponent + s.digits.length - 1

/-- The text without an exponent. -/
def Shortest.positional (s : Shortest) : List Char :=
  if 0 ≤ s.exponent then s.digits ++ List.replicate s.exponent.toNat '0'
  else if 0 ≤ s.magnitude then
    let whole := (s.magnitude + 1).toNat
    s.digits.take whole ++ '.' :: s.digits.drop whole
  else '0' :: '.' :: List.replicate (-s.magnitude - 1).toNat '0' ++ s.digits

/-- The text with one digit before the point and an exponent with its sign. -/
def Shortest.scientific (s : Shortest) : List Char :=
  let fraction := s.digits.drop 1
  s.digits.take 1 ++ (if fraction.isEmpty then [] else '.' :: fraction) ++
    ['e', if s.magnitude < 0 then '-' else '+'] ++ Nat.toDigits 10 s.magnitude.natAbs

/-- Positional text with a point while the first digit stands between `10 ^ -5` and `10 ^ 15`,
scientific text beyond. -/
def Shortest.tagged (s : Shortest) : List Char :=
  if -5 ≤ s.magnitude && s.magnitude ≤ 15 then
    if 0 ≤ s.exponent then s.positional ++ ['.', '0'] else s.positional
  else s.scientific

/-- The text of a number: a sign, then the text of its shortest decimal. -/
def textOf (zero : List Char) (tie : Tie) (write : Shortest → List Char) (x : Float) : String :=
  match Dyadic.ofFloat? x with
  | none => if x.isNaN then "NaN" else if x < 0 then "-inf" else "inf"
  | some d =>
    let body := if d.significand = 0 then zero else write (shortest tie d)
    String.ofList (if d.negative then '-' :: body else body)

/-- The shortest positional text; a whole number has no point. -/
def plainText (x : Float) : String := textOf ['0'] .upward Shortest.positional x

/-- The shortest text that shows a number to be a fraction of the binary kind. -/
def taggedText (x : Float) : String := textOf ['0', '.', '0'] .even Shortest.tagged x

end Workbook.Decimal

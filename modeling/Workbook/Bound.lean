import Workbook.Decimal.Dyadic
import Workbook.Formula
import Workbook.Rule

/-!
# Values of rules

Numbers and moments as the values that rules compare cells with: their formulas and their order.
-/

namespace Workbook

/-- A value that rules compare cells with. -/
class Bound (α : Type) where
  /-- The formula of the value. -/
  formula : α → Path → Except Issue String
  /-- The order of values. -/
  order : α → α → Ordering

/-- The place of a number in the order of all binary64 numbers, negative zero before zero. -/
def orderKey (x : Float) : Int :=
  let magnitude : Nat := x.toBits.toNat % Decimal.signWeight
  if x.toBits.toNat < Decimal.signWeight then magnitude else -(magnitude : Int) - 1

instance : Bound Float where
  formula := Formula.numberLiteral
  order x y := compare (orderKey x) (orderKey y)

namespace TemporalValue

/-- The formula of a temporal value. -/
def formula (v : TemporalValue) (path : Path) : Except Issue String :=
  match Moment.ofText? v.text with
  | some m => .ok m.formula
  | none =>
    .error (.processing ("invalid temporal value '" ++ v.text ++
      "', expected a date, time or date-time") path)

/-- The order of instants; a text that is no moment equals every other. -/
def order (a b : TemporalValue) : Ordering :=
  match Moment.ofText? a.text, Moment.ofText? b.text with
  | some a, some b => a.compare b
  | _, _ => .eq

instance : Bound TemporalValue := ⟨formula, order⟩

end TemporalValue

/-- Two values in their order. -/
def orderedBounds {α : Type} [Bound α] (low high : α) : α × α :=
  if Bound.order high low = .lt then (high, low) else (low, high)

end Workbook

import Workbook.Proofs.NumberOrder
import Workbook.Validation

/-!
# The bounds of range rules

A range rule puts its bounds in order before it shows them. Numbers are shown in the order of their values,
whichever is written first. Moments are put in the order of their instants, but shown as they are, so a day
and the midnight at which it starts, which are one instant, are shown in the order in which they are written.
-/

namespace Workbook

open Decimal

/-! ## What a range rule shows -/

section

variable {α : Type} [Bound α] {test : RangeTest} {low high : α} {f g f' g' : String}

/-- A value has a formula, wherever it stands. -/
def Bound.HasFormula (v : α) (f : String) : Prop := ∀ path, Bound.formula v path = .ok f

namespace RangeTest

/-- A range rule shows two formulas, in validations and conditional formats alike. -/
def Shows (test : RangeTest) (low high : α) (f g : String) : Prop :=
  ∀ cell path,
    (∀ kind, DataValidation.ofOrderedRule kind cell path (.range test low high) =
      .ok { kind, operator := some test.operator, formula1 := some f, formula2 := some g }) ∧
    ∀ style, ConditionalFormat.ofOrderedRule cell path (.range test low high) style =
      .ok { kind := .cellIs, operator := some test.operator, formula1 := some f, formula2 := some g, style }

/-- A range rule shows the same formulas whichever of its bounds is written first. -/
def Commutes (test : RangeTest) (x y : α) : Prop := ∃ f g, test.Shows x y f g ∧ test.Shows y x f g

/-- A range rule shows the formulas of its bounds in order. -/
theorem shows_orderedBounds (hlow : Bound.HasFormula (orderedBounds low high).1 f)
    (hhigh : Bound.HasFormula (orderedBounds low high).2 g) : test.Shows low high f g := by
  intro cell path
  have formulas : (OrderedRule.range test low high).formulas cell path =
      .ok ⟨some test.operator, f, some g⟩ := by
    simp only [OrderedRule.formulas, hlow _, hhigh _]
    rfl
  constructor
  · intro kind
    rw [DataValidation.ofOrderedRule, formulas]
    rfl
  · intro style
    rw [ConditionalFormat.ofOrderedRule, formulas]
    rfl

/-- A lower bound that is written last is shown first. -/
theorem shows_of_lt (hlow : Bound.HasFormula low f) (hhigh : Bound.HasFormula high g)
    (h : Bound.order low high = .lt) : test.Shows high low f g := by
  have bounds : orderedBounds high low = (low, high) := if_pos h
  exact shows_orderedBounds (bounds ▸ hlow) (bounds ▸ hhigh)

/-- Bounds that are written in their order are shown in this order. -/
theorem shows_of_isLE (hlow : Bound.HasFormula low f) (hhigh : Bound.HasFormula high g)
    (swap : (Bound.order low high).swap = Bound.order high low) (h : (Bound.order low high).isLE) :
    test.Shows low high f g := by
  have written : Bound.order high low ≠ .lt := by
    rw [← swap, Ne, Ordering.swap_eq_lt]
    intro later
    rw [later] at h
    cases h
  have bounds : orderedBounds low high = (low, high) := if_neg written
  exact shows_orderedBounds (bounds ▸ hlow) (bounds ▸ hhigh)

/-- A range rule shows no other formulas. -/
theorem Shows.inj (h : test.Shows low high f g) (h' : test.Shows low high f' g') : f = f' ∧ g = g' := by
  let cell : FormulaCell := ⟨⟨{}, ⟨"", "", ""⟩⟩, 0, 0⟩
  have same := ((h cell .root).1 .date).symm.trans ((h' cell .root).1 .date)
  simp only [Except.ok.injEq, DataValidation.mk.injEq, Option.some.injEq] at same
  exact ⟨same.2.2.1, same.2.2.2.1⟩

end RangeTest

end

/-! ## Numbers -/

/-- The formula of a finite number is its plain text. -/
theorem hasFormula_number {x : Float} (finite : x.isFinite) : Bound.HasFormula x (plainText x) :=
  fun _ => if_pos finite

/-- Finite bounds in the order of their keys are shown in this order. -/
theorem shows_numbers {test : RangeTest} {x y : Float} (hx : x.isFinite) (hy : y.isFinite)
    (h : orderKey x ≤ orderKey y) :
    test.Shows x y (plainText x) (plainText y) ∧ test.Shows y x (plainText x) (plainText y) := by
  have xFormula := hasFormula_number hx
  have yFormula := hasFormula_number hy
  have forth : test.Shows x y (plainText x) (plainText y) :=
    RangeTest.shows_of_isLE xFormula yFormula (Int.compare_swap _ _) (Int.isLE_compare.2 h)
  rcases Int.le_iff_lt_or_eq.1 h with less | same
  · exact ⟨forth, RangeTest.shows_of_lt xFormula yFormula (Int.compare_eq_lt.2 less)⟩
  · obtain rfl := orderKey_inj same
    exact ⟨forth, forth⟩

/-! ## Moments -/

namespace Moment

/-- The parts of an instant tell the instant. -/
theorem parts_inj {a b : Moment} : a.parts = b.parts ↔ a.instant = b.instant := by
  rw [parts, parts]
  generalize a.instant = i, b.instant = j
  obtain ⟨⟨year, month, day⟩, ⟨hour, minute, second⟩⟩ := i
  obtain ⟨⟨year', month', day'⟩, ⟨hour', minute', second'⟩⟩ := j
  simp only [List.cons.injEq, Int.ofNat_inj, Prod.mk.injEq, Day.mk.injEq, Clock.mk.injEq, and_true, and_assoc]

/-- The order of two moments, the other way round. -/
theorem swap_compare (a b : Moment) : (a.compare b).swap = b.compare a :=
  (@compareOfLessAndEq_eq_swap _ _ List.instLE _ _ List.le_antisymm List.le_total List.not_le _ _).symm

/-- Moments are equal in order if they are one instant. -/
theorem compare_eq_eq {a b : Moment} : a.compare b = .eq ↔ a.instant = b.instant :=
  (@compareOfLessAndEq_eq_eq _ _ List.instLE _ _ _ List.le_refl List.not_le _ _).trans parts_inj

/-- The formula of a day begins with another letter than that of a time. -/
theorem dayFormula_append_ne_clockFormula (d : Day) (s : String) (c : Clock) :
    dayFormula d ++ s ≠ clockFormula c := by
  intro h
  have letter := congrArg (fun text => text.toList.head?) h
  simp [dayFormula, clockFormula] at letter

/-- A time adds to the formula of a day. -/
theorem dayFormula_append_ne_dayFormula (d : Day) (c : Clock) :
    dayFormula d ++ "+" ++ clockFormula c ≠ dayFormula d := by
  intro h
  have length := congrArg String.length h
  simp only [String.length_append] at length
  have plus : "+".length = 1 := rfl
  omega

/-- Moments of one instant that have one formula are the same. The formula alone does not tell: a leap
second has that of the second before it. -/
theorem eq_of_formula {a b : Moment} (instant : a.instant = b.instant) (formula : a.formula = b.formula) :
    a = b := by
  obtain ⟨day, clock⟩ := Prod.mk.inj instant
  match a, b with
  | .day d, .day e => exact congrArg Moment.day day
  | .clock c, .clock k => exact congrArg Moment.clock clock
  | .both d c, .both e k => rw [show d = e from day, show c = k from clock]
  | .day d, .clock k =>
    exact absurd (String.append_empty.trans formula) (dayFormula_append_ne_clockFormula d "" k)
  | .clock c, .day e =>
    exact absurd (String.append_empty.trans formula.symm) (dayFormula_append_ne_clockFormula e "" c)
  | .day d, .both e k =>
    obtain rfl : d = e := day
    exact absurd formula.symm (dayFormula_append_ne_dayFormula d k)
  | .both d c, .day e =>
    obtain rfl : d = e := day
    exact absurd formula (dayFormula_append_ne_dayFormula d c)
  | .both d c, .clock k =>
    exact absurd (String.append_assoc.symm.trans formula) (dayFormula_append_ne_clockFormula d _ k)
  | .clock c, .both e k =>
    exact absurd (String.append_assoc.symm.trans formula.symm) (dayFormula_append_ne_clockFormula e _ c)

end Moment

/-- The formula of a moment is that of what its text is read as. -/
theorem hasFormula_moment {v : TemporalValue} {m : Moment} (h : Moment.ofText? v.text = some m) :
    Bound.HasFormula v m.formula := by
  intro path
  change v.formula path = _
  rw [TemporalValue.formula, h]

/-- The order of dates and times that can be read is that of their moments. -/
theorem order_moment {u v : TemporalValue} {a b : Moment} (hu : Moment.ofText? u.text = some a)
    (hv : Moment.ofText? v.text = some b) : Bound.order u v = a.compare b := by
  change u.order v = _
  rw [TemporalValue.order, hu, hv]

namespace RangeTest

variable {test : RangeTest} {u v : TemporalValue} {a b : Moment}

/-- Moments that are written in their order are shown in this order. -/
theorem shows_moments (hu : Moment.ofText? u.text = some a) (hv : Moment.ofText? v.text = some b)
    (h : (a.compare b).isLE) : test.Shows u v a.formula b.formula := by
  refine shows_of_isLE (hasFormula_moment hu) (hasFormula_moment hv) ?_ ?_
  · rw [order_moment hu hv, order_moment hv hu, Moment.swap_compare]
  · rwa [order_moment hu hv]

/-- An earlier moment that is written last is shown first. -/
theorem shows_moments_of_lt (hu : Moment.ofText? u.text = some a) (hv : Moment.ofText? v.text = some b)
    (h : a.compare b = .lt) : test.Shows v u a.formula b.formula :=
  shows_of_lt (hasFormula_moment hu) (hasFormula_moment hv) ((order_moment hu hv).trans h)

/-- Of two moments of one instant the one that is written first is shown first. -/
theorem shows_moments_of_instant (hu : Moment.ofText? u.text = some a) (hv : Moment.ofText? v.text = some b)
    (h : a.instant = b.instant) : test.Shows u v a.formula b.formula :=
  shows_moments hu hv (by rw [Moment.compare_eq_eq.2 h, Ordering.isLE_eq])

/-- Two moments are shown in the same order whichever is written first, unless they are one instant that is
written in two ways. -/
theorem commutes_moments_iff (hu : Moment.ofText? u.text = some a) (hv : Moment.ofText? v.text = some b) :
    test.Commutes u v ↔ (a.instant = b.instant → a = b) := by
  constructor
  · intro ⟨f, g, forth, back⟩ instant
    have first := (forth.inj (shows_moments_of_instant hu hv instant)).1
    have swapped := (back.inj (shows_moments_of_instant hv hu instant.symm)).1
    exact Moment.eq_of_formula instant (first.symm.trans swapped)
  · intro apart
    have swap := Moment.swap_compare a b
    cases order : a.compare b with
    | lt => exact ⟨_, _, shows_moments hu hv (order ▸ rfl), shows_moments_of_lt hu hv order⟩
    | eq =>
      obtain rfl := apart (Moment.compare_eq_eq.1 order)
      exact ⟨_, _, shows_moments_of_instant hu hv rfl, shows_moments_of_instant hv hu rfl⟩
    | gt =>
      rw [order] at swap
      exact ⟨_, _, shows_moments_of_lt hv hu swap.symm, shows_moments hv hu (swap ▸ rfl)⟩

/-- Finite numbers are shown in the order of their values, whichever is written first. Dates and times are
shown in the order of their instants, and whichever is written first makes no difference exactly if the two
are different instants or the same moment. -/
theorem shows_in_order (test : RangeTest) :
    (∀ x y : Float, x.isFinite → y.isFinite → ∃ low high, low ≤ high ∧
      ((low, high) = (x, y) ∨ (low, high) = (y, x)) ∧
      test.Shows x y (plainText low) (plainText high) ∧ test.Shows y x (plainText low) (plainText high)) ∧
    ∀ (u v : TemporalValue) (a b : Moment), Moment.ofText? u.text = some a → Moment.ofText? v.text = some b →
      (∃ low high, (low.compare high).isLE ∧ ((low, high) = (a, b) ∨ (low, high) = (b, a)) ∧
        test.Shows u v low.formula high.formula) ∧
      (test.Commutes u v ↔ (a.instant = b.instant → a = b)) := by
  refine ⟨fun x y hx hy => ?_, fun u v a b hu hv => ⟨?_, commutes_moments_iff hu hv⟩⟩
  · rcases Int.le_total (orderKey x) (orderKey y) with h | h
    · exact ⟨x, y, le_of_orderKey_le hx hy h, .inl rfl, shows_numbers hx hy h⟩
    · exact ⟨y, x, le_of_orderKey_le hy hx h, .inr rfl, (shows_numbers hy hx h).symm⟩
  · have swap := Moment.swap_compare a b
    cases order : a.compare b with
    | lt | eq => exact ⟨a, b, order ▸ rfl, .inl rfl, shows_moments hu hv (order ▸ rfl)⟩
    | gt =>
      rw [order] at swap
      exact ⟨b, a, swap ▸ rfl, .inr rfl, shows_moments_of_lt hv hu swap.symm⟩

/-- The last day of January. -/
def lastDay : TemporalValue := ⟨"2024-01-31"⟩

/-- The midnight at which the last day of January starts. -/
def lastMidnight : TemporalValue := ⟨"2024-01-31T00:00"⟩

/-- A morning of the last day of January. -/
def lastMorning : TemporalValue := ⟨"2024-01-31 10:30"⟩

/-- A half and a quarter are shown in order, and swapping a morning and its day changes nothing. -/
theorem shows_in_order_halves_mornings :
    ((0.5 : Float).isFinite ∧ (0.25 : Float).isFinite ∧ outside.Shows (0.5 : Float) 0.25 "0.25" "0.5" ∧
      outside.Shows (0.25 : Float) 0.5 "0.25" "0.5") ∧
    outside.Commutes lastMorning lastDay := by
  have half : (0.5 : Float).isFinite := by decide +kernel
  have quarter : (0.25 : Float).isFinite := by decide +kernel
  obtain ⟨numbers, moments⟩ := outside.shows_in_order
  obtain ⟨low, high, le, bounds | bounds, forth, back⟩ := numbers 0.5 0.25 half quarter
  · cases bounds
    exact absurd le (by decide +kernel)
  cases bounds
  rw [show plainText 0.25 = "0.25" by decide +kernel,
    show plainText 0.5 = "0.5" by decide +kernel] at forth back
  let day : Day := ⟨2024, 1, 31⟩
  have hmorning : Moment.ofText? lastMorning.text = some (.both day ⟨10, 30, 0⟩) := by decide
  have hday : Moment.ofText? lastDay.text = some (.day day) := by decide
  exact ⟨⟨half, quarter, forth, back⟩,
    (moments lastMorning lastDay _ _ hmorning hday).2.2 (by decide)⟩

/-- A day and its midnight are shown in the order in which they are written. -/
theorem not_commutes_midnight :
    between.Shows lastDay lastMidnight "DATE(2024,1,31)" "DATE(2024,1,31)+TIME(0,0,0)" ∧
    between.Shows lastMidnight lastDay "DATE(2024,1,31)+TIME(0,0,0)" "DATE(2024,1,31)" ∧
    ¬ between.Commutes lastDay lastMidnight := by
  let day : Day := ⟨2024, 1, 31⟩
  have hday : Moment.ofText? lastDay.text = some (.day day) := by decide
  have hmidnight : Moment.ofText? lastMidnight.text = some (.both day ⟨0, 0, 0⟩) := by decide
  have forth : between.Shows lastDay lastMidnight _ _ := shows_moments hday hmidnight (by decide)
  have back : between.Shows lastMidnight lastDay _ _ := shows_moments hmidnight hday (by decide)
  rw [show (Moment.day day).formula = "DATE(2024,1,31)" by decide +kernel,
    show (Moment.both day ⟨0, 0, 0⟩).formula = "DATE(2024,1,31)+TIME(0,0,0)" by decide +kernel] at forth back
  refine ⟨forth, back, ?_⟩
  rw [commutes_moments_iff hday hmidnight]
  decide

end RangeTest

end Workbook

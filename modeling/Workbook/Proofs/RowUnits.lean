import Workbook.Proofs.TrimmedTexts
import Workbook.Selection

/-!
# Texts of row units

Which texts are row units, said without a reader: a sign and the digits of a number of 32 bits, with blanks
only around them. Exactly these texts are read, each as the unit of its sign with its whole number, and every
other text is refused at the path where it stands.
-/

namespace Workbook

open Text

/-- Digits of base ten spell a number. Zeros may stand in front. -/
structure SpellsDecimal (digits : List Char) (n : Nat) : Prop where
  ne_nil : digits ≠ []
  isDigit : ∀ c ∈ digits, c.isDigit
  value : Nat.ofDigitChars 10 digits 0 = n

namespace Text

theorem isDigit_eq (c : Char) : isDigit c = c.isDigit := rfl

theorem readDecimal_eq (ds : List Char) : readDecimal ds = Nat.ofDigitChars 10 ds 0 := rfl

/-- A number is read exactly from digits that spell it. -/
theorem decimal?_eq_some_iff {digits : List Char} {n : Nat} :
    decimal? digits = some n ↔ SpellsDecimal digits n := by
  rw [decimal?, readDecimal_eq, Option.ite_none_right_eq_some, Bool.and_eq_true, Bool.not_eq_true',
    List.isEmpty_eq_false_iff, List.all_eq_true, Option.some.injEq]
  constructor
  · rintro ⟨⟨hne, hall⟩, hvalue⟩
    exact ⟨hne, fun c hc => isDigit_eq c ▸ hall c hc, hvalue⟩
  · rintro ⟨hne, hall, hvalue⟩
    exact ⟨⟨hne, fun c hc => isDigit_eq c ▸ hall c hc⟩, hvalue⟩

end Text

namespace CellUnit

/-- A unit is spelled by its sign and the digits of a number of 32 bits. -/
inductive SpelledBy : CellUnit → List Char → Prop
  | fixed {digits : List Char} {n : Nat} (spells : SpellsDecimal digits n) (small : n ≤ 4294967295) :
    SpelledBy (.absolute n) ('$' :: digits)
  | forward {digits : List Char} {n : Nat} (spells : SpellsDecimal digits n) (small : n ≤ 4294967295) :
    SpelledBy (.relative n) ('+' :: digits)
  | backward {digits : List Char} {n : Nat} (spells : SpellsDecimal digits n) (small : n ≤ 4294967295) :
    SpelledBy (.relative (-n)) ('-' :: digits)

variable {digits cs : List Char} {n : Nat} {u : CellUnit}

/-- A number of a row is read exactly from digits that spell it, if a machine word holds it. -/
theorem gridNumber?_eq_some_iff :
    gridNumber? digits = some n ↔ SpellsDecimal digits n ∧ n ≤ 4294967295 := by
  have hsize (m : Nat) : m < gridSize ↔ m ≤ 4294967295 := Nat.lt_succ_iff
  simp only [gridNumber?, Option.bind_eq_bind, Option.bind_eq_some_iff, decimal?_eq_some_iff,
    Option.ite_none_right_eq_some, Option.some.injEq, hsize]
  constructor
  · rintro ⟨m, hspells, hsmall, rfl⟩
    exact ⟨hspells, hsmall⟩
  · rintro ⟨hspells, hsmall⟩
    exact ⟨n, hspells, hsmall, rfl⟩

/-- The number of an offset is read as an integer. -/
theorem gridOffset?_eq_some_iff {k : Int} : (do let n ← gridNumber? digits; pure (n : Int)) = some k ↔
    ∃ n : Nat, k = n ∧ SpellsDecimal digits n ∧ n ≤ 4294967295 := by
  simp only [Option.bind_eq_bind, Option.bind_eq_some_iff, gridNumber?_eq_some_iff, Option.pure_def,
    Option.some.injEq]
  constructor
  · rintro ⟨n, hn, rfl⟩
    exact ⟨n, rfl, hn⟩
  · rintro ⟨n, rfl, hn⟩
    exact ⟨n, hn, rfl⟩

/-- A unit is read exactly if it is spelled between the blanks around the text. -/
theorem ofChars?_eq_some_iff : ofChars? cs = some u ↔ u.SpelledBy (trim cs) := by
  rw [ofChars?]
  generalize trim cs = inside
  constructor
  · intro h
    split at h
    · obtain ⟨n, hn, rfl⟩ := Option.map_eq_some_iff.1 h
      obtain ⟨hspells, hsmall⟩ := gridNumber?_eq_some_iff.1 hn
      exact .fixed hspells hsmall
    · obtain ⟨k, hk, rfl⟩ := Option.map_eq_some_iff.1 h
      obtain ⟨n, rfl, hspells, hsmall⟩ := gridOffset?_eq_some_iff.1 hk
      exact .forward hspells hsmall
    · obtain ⟨k, hk, rfl⟩ := Option.map_eq_some_iff.1 h
      obtain ⟨n, rfl, hspells, hsmall⟩ := gridOffset?_eq_some_iff.1 hk
      exact .backward hspells hsmall
    · cases h
  · intro h
    cases h with
    | fixed spells small =>
      have hn := gridNumber?_eq_some_iff.2 ⟨spells, small⟩
      exact Option.map_eq_some_iff.2 ⟨_, hn, rfl⟩
    | forward spells small =>
      have hk := gridOffset?_eq_some_iff.2 ⟨_, rfl, spells, small⟩
      exact Option.map_eq_some_iff.2 ⟨_, hk, rfl⟩
    | backward spells small =>
      have hk := gridOffset?_eq_some_iff.2 ⟨_, rfl, spells, small⟩
      exact Option.map_eq_some_iff.2 ⟨_, hk, rfl⟩

/-- A row unit is read exactly from a text that spells it, with blanks around it. -/
theorem parse_eq_ok_iff {unit : String} {path : Path} : parse unit path = .ok u ↔ u.SpelledBy (trim unit.toList) := by
  rw [← ofChars?_eq_some_iff, parse]
  cases ofChars? unit.toList <;> simp

/-- What is written between the blanks around a text decides whether the text is a row unit. Exactly the texts
of a sign and the digits of a number of 32 bits are, each of the unit with that sign and that whole number. Any
other text is refused at its path, and the message shows it without the blanks around it. -/
theorem parse_reads_signed_numbers (unit : String) (path : Path) :
    ∃ inside, (∀ t, Trims unit.toList t ↔ t = inside) ∧
      (∀ u, parse unit path = .ok u ↔ u.SpelledBy inside) ∧
      (parse unit path = .error (.processing ("invalid row selector '" ++ String.ofList inside ++
        "', expected '$n', '+n' or '-n'") path) ↔ ∀ u : CellUnit, ¬u.SpelledBy inside) := by
  refine ⟨trim unit.toList, fun t => trims_iff, fun u => parse_eq_ok_iff, ?_⟩
  simp only [← ofChars?_eq_some_iff, parse]
  cases ofChars? unit.toList <;> simp

example : parse "\u3000-007\n" .root = .ok (.relative (-7)) := by rfl

end CellUnit

end Workbook

import Workbook.Proofs.FormulaTrees
import Workbook.Proofs.MomentTexts
import Workbook.Proofs.RangeBounds

/-!
# What the formulas of dates and times denote

The formula of a moment is read with the grammar of formulas, and not with the writer, as calls that are
added up. The calls are those of `DATE` with the year, the month and the day and of `TIME` with the hour, the
minute and the second of the moment. A leap second is the one exception: it has the formula of the second
before it, although it comes after it.
-/

namespace Workbook

open Grammar

/-! ## Calls with whole numbers -/

/-- A call of a function with whole numbers. -/
structure Call where
  name : String
  numbers : List Int
deriving DecidableEq, Repr

namespace Grammar

/-- The whole number of a tree. -/
def Tree.whole? : Tree → Option Int
  | .number cs => (Text.decimal? cs).map Int.ofNat
  | .negation (.number cs) => (Text.decimal? cs).map fun n => -(n : Int)
  | _ => none

/-- The calls that a tree adds up. -/
def Tree.calls? : Tree → Option (List Call)
  | .call name items => (items.mapM Tree.whole?).map fun numbers => [⟨String.ofList name, numbers⟩]
  | .binary .add a b => do
    let first ← a.calls?
    let second ← b.calls?
    return first ++ second
  | _ => none

end Grammar

/-- The calls that a formula adds up. -/
def calls? (formula : String) : Option (List Call) := (read? formula.toList).bind Tree.calls?

/-- The numbers with which a function is called, or other numbers if it is not called. -/
def numbersOf (name : String) (default : List Int) (calls : List Call) : List Int :=
  ((calls.find? (·.name == name)).map Call.numbers).getD default

/-- The parts of the instant that calls denote. Without a day it is the first day, and without a time it is
midnight. -/
def denotedParts (calls : List Call) : List Int :=
  numbersOf "DATE" [Day.firstYear, 1, 1] calls ++ numbersOf "TIME" [0, 0, 0] calls

/-! ## The calls of moments -/

/-- The call for a day. -/
def Day.call (d : Day) : Call := ⟨"DATE", [d.year, d.month, d.day]⟩

/-- The call for a clock. No second follows the second 59. -/
def Clock.call (c : Clock) : Call := ⟨"TIME", [c.hour, c.minute, (min c.second 59 : Nat)]⟩

namespace Moment

/-- The calls for a moment. -/
def calls : Moment → List Call
  | .day d => [d.call]
  | .clock c => [c.call]
  | .both d c => [d.call, c.call]

/-- Two days, two clocks, or two that are both. -/
def SameKind : Moment → Moment → Prop
  | .day _, .day _ | .clock _, .clock _ | .both _ _, .both _ _ => True
  | _, _ => False

/-- The second moment is the leap second that follows the first. -/
structure LeapsTo (a b : Moment) : Prop where
  day : a.instant.1 = b.instant.1
  minute : (a.instant.2.hour, a.instant.2.minute) = (b.instant.2.hour, b.instant.2.minute)
  second : a.instant.2.second = 59
  leap : b.instant.2.second = 60

/-! ## Formulas are read back -/

/-- The text of a whole number is an operand that has the number. -/
theorem integer_unary (i : Int) : ∃ ts t, (toString i).toList = spell ts ∧ Unary ts t ∧ t.whole? = some i := by
  have numeral (n : Nat) : IsNumeral (Nat.toDigits 10 n) := .inl (isDigits_toDigits n)
  cases i with
  | ofNat n =>
    refine ⟨[.number (Nat.toDigits 10 n)], _, ?_, .number (numeral n), ?_⟩
    · rw [Text.toList_toString_ofNat]
      exact (List.append_nil _).symm
    · rw [Tree.whole?, Text.decimal?_toDigits]
      rfl
  | negSucc n =>
    refine ⟨[.operator .subtract, .number (Nat.toDigits 10 (n + 1))], _, ?_, .negation (.number (numeral _)), ?_⟩
    · rw [Text.toList_toString_negSucc]
      exact (List.append_nil _).symm
    · rw [Tree.whole?, Text.decimal?_toDigits]
      rfl

/-- The texts of whole numbers are operands that have the numbers. -/
theorem integers_unary (numbers : List Int) : ∃ pieces : List Piece,
    numbers.map (fun i => (toString i).toList) = pieces.map (fun p => spell p.1) ∧
    (∀ p ∈ pieces, Unary p.1 p.2) ∧ (pieces.map Prod.snd).mapM Tree.whole? = some numbers := by
  induction numbers with
  | nil => exact ⟨[], rfl, List.forall_mem_nil _, rfl⟩
  | cons i numbers ih =>
    obtain ⟨pieces, chars, unary, whole⟩ := ih
    obtain ⟨ts, t, hchars, hunary, hwhole⟩ := integer_unary i
    refine ⟨(ts, t) :: pieces, ?_, List.forall_mem_cons.2 ⟨hunary, unary⟩, ?_⟩
    · rw [List.map_cons, List.map_cons, hchars, chars]
    · rw [List.map_cons, List.mapM_cons, hwhole, whole]
      rfl

/-- The text of a call with whole numbers. -/
def callText (c : Call) : List Char :=
  c.name.toList ++ '(' :: ([','].intercalate (c.numbers.map fun i => (toString i).toList) ++ [')'])

/-- The text of a call is an operand that is this call. -/
theorem callText_unary {c : Call} (name : isName c.name.toList) :
    ∃ ts t, callText c = spell ts ∧ Unary ts t ∧ t.calls? = some [c] := by
  obtain ⟨pieces, chars, unary, numbers⟩ := integers_unary c.numbers
  obtain ⟨ts, hcall, hspell⟩ := call_unary name pieces fun p hp => .unary (unary p hp)
  refine ⟨ts, _, ?_, hcall, ?_⟩
  · rw [callText, chars, hspell]
  · rw [Tree.calls?, numbers, Option.map_some, String.ofList_toList]

/-- The formula of a day is the text of its call. -/
theorem toList_dayFormula (d : Day) : (dayFormula d).toList = callText d.call := by
  have shown (n : Nat) : toString (n : Int) = toString n := rfl
  simp only [dayFormula, callText, Day.call, String.toList_append, List.map_cons, List.map_nil, shown,
    List.intercalate_cons_cons, List.intercalate_singleton, List.append_assoc]
  rfl

/-- The formula of a clock is the text of its call. -/
theorem toList_clockFormula (c : Clock) : (clockFormula c).toList = callText c.call := by
  have shown (n : Nat) : toString (n : Int) = toString n := rfl
  simp only [clockFormula, callText, Clock.call, String.toList_append, List.map_cons, List.map_nil, shown,
    List.intercalate_cons_cons, List.intercalate_singleton, List.append_assoc]
  rfl

/-- The call of a day has the name of a function. -/
theorem isName_day (d : Day) : isName d.call.name.toList := by
  change isName "DATE".toList
  decide

/-- The call of a clock has the name of a function. -/
theorem isName_clock (c : Clock) : isName c.call.name.toList := by
  change isName "TIME".toList
  decide

/-- The formula of a moment is read back as its calls. -/
theorem calls?_formula (m : Moment) : calls? m.formula = some m.calls := by
  have single {formula : String} {c : Call} (h : formula.toList = callText c) (name : isName c.name.toList) :
      calls? formula = some [c] := by
    obtain ⟨ts, t, htext, hunary, hcalls⟩ := callText_unary name
    have phrase : Phrase 0 ts t := .unary hunary
    rw [calls?, h, htext, phrase.read?_eq.2, Option.bind_some, hcalls]
  cases m with
  | day d => exact single (toList_dayFormula d) (isName_day d)
  | clock c => exact single (toList_clockFormula c) (isName_clock c)
  | both d c =>
    obtain ⟨ts, t, htext, hunary, hcalls⟩ := callText_unary (isName_day d)
    obtain ⟨us, u, utext, uunary, ucalls⟩ := callText_unary (isName_clock c)
    have phrase : Phrase 0 (ts ++ .operator .add :: us) (.binary .add t u) :=
      .binary (Nat.zero_le _) (.unary hunary) (.unary uunary)
    have chars : (formula (.both d c)).toList = spell (ts ++ .operator .add :: us) := by
      rw [formula, String.toList_append, String.toList_append, toList_dayFormula, toList_clockFormula, htext,
        utext, spell_append, spell_cons, List.append_assoc]
      rfl
    rw [calls?, chars, phrase.read?_eq.2, Option.bind_some, Tree.calls?, hcalls, ucalls]
    rfl

/-! ## Instants that formulas tell apart -/

section Parts

variable {a b : Moment}

/-- The parts of an instant, with the second 59 as the last one of a minute. -/
theorem denotedParts_calls (m : Moment) : denotedParts m.calls =
    [m.instant.1.year, m.instant.1.month, m.instant.1.day, m.instant.2.hour, m.instant.2.minute,
      (min m.instant.2.second 59 : Nat)] := by
  cases m <;> rfl

/-- A moment that exists is at most at the second 60. -/
theorem second_le (h : a.Exists) : a.instant.2.second ≤ 60 := by
  cases a with
  | day d => exact Nat.zero_le _
  | clock c => exact h.second
  | both d c => exact h.2.second

/-- A moment leaps to another of the same day, hour and minute, with the second 60 in place of 59. -/
theorem leapsTo_iff : a.LeapsTo b ↔
    a.instant.1 = b.instant.1 ∧ a.instant.2.hour = b.instant.2.hour ∧
      a.instant.2.minute = b.instant.2.minute ∧ a.instant.2.second = 59 ∧ b.instant.2.second = 60 := by
  constructor
  · intro h
    exact ⟨h.day, (Prod.mk.inj h.minute).1, (Prod.mk.inj h.minute).2, h.second, h.leap⟩
  · intro ⟨hday, hour, minute, second, leap⟩
    exact ⟨hday, by rw [hour, minute], second, leap⟩

/-- The calls of two moments denote the same parts exactly if the moments are one instant or one of them
leaps to the other. -/
theorem denotedParts_eq_iff (ha : a.Exists) (hb : b.Exists) :
    denotedParts a.calls = denotedParts b.calls ↔ a.instant = b.instant ∨ a.LeapsTo b ∨ b.LeapsTo a := by
  have aSecond := second_le ha
  have bSecond := second_le hb
  rw [denotedParts_calls, denotedParts_calls, leapsTo_iff, leapsTo_iff]
  revert aSecond bSecond
  generalize a.instant = i, b.instant = j
  obtain ⟨⟨year, month, day⟩, ⟨hour, minute, second⟩⟩ := i
  obtain ⟨⟨year', month', day'⟩, ⟨hour', minute', second'⟩⟩ := j
  simp only [List.cons.injEq, Prod.mk.injEq, Day.mk.injEq, Clock.mk.injEq, and_true]
  omega

/-- An earlier instant denotes smaller parts exactly if it does not leap to the later one. -/
theorem denotedParts_lt_iff (ha : a.Exists) (hb : b.Exists) (h : a.compare b = .lt) :
    denotedParts a.calls < denotedParts b.calls ↔ ¬ a.LeapsTo b := by
  have aSecond := second_le ha
  have bSecond := second_le hb
  have earlier : a.parts < b.parts := compareOfLessAndEq_eq_lt.1 h
  rw [denotedParts_calls, denotedParts_calls, leapsTo_iff]
  revert aSecond bSecond earlier
  rw [parts, parts]
  generalize a.instant = i, b.instant = j
  obtain ⟨⟨year, month, day⟩, ⟨hour, minute, second⟩⟩ := i
  obtain ⟨⟨year', month', day'⟩, ⟨hour', minute', second'⟩⟩ := j
  simp only [List.cons_lt_cons_iff, List.not_lt_nil, and_false, or_false, Day.mk.injEq]
  omega

/-- The formulas of two days, two clocks, or two moments that are both are the same exactly if what they
denote is. -/
theorem formula_eq_iff (kind : a.SameKind b) :
    a.formula = b.formula ↔ denotedParts a.calls = denotedParts b.calls := by
  constructor
  · intro h
    have calls := (calls?_formula a).symm.trans ((congrArg calls? h).trans (calls?_formula b))
    rw [Option.some.inj calls]
  · intro h
    rw [denotedParts_calls, denotedParts_calls] at h
    simp only [List.cons.injEq, Int.ofNat_inj, and_true] at h
    obtain ⟨year, month, number, hour, minute, second⟩ := h
    have sameDay : dayFormula a.instant.1 = dayFormula b.instant.1 := by
      rw [dayFormula, dayFormula, year, month, number]
    have sameClock : clockFormula a.instant.2 = clockFormula b.instant.2 := by
      rw [clockFormula, clockFormula, hour, minute, second]
    cases a with
    | day d =>
      cases b with
      | day e => exact sameDay
      | clock _ | both _ _ => exact False.elim kind
    | clock c =>
      cases b with
      | clock k => exact sameClock
      | day _ | both _ _ => exact False.elim kind
    | both d c =>
      cases b with
      | both e k =>
        rw [formula, formula, show dayFormula d = dayFormula e from sameDay,
          show clockFormula c = clockFormula k from sameClock]
      | day _ | clock _ => exact False.elim kind

end Parts

/-! ## Formulas of texts -/

section Texts

variable {s t : String} {a b : Moment}

/-- A text that is accepted writes one moment, and the formula calls `DATE` and `TIME` with its year, month,
day, hour, minute and second, as they are written. Two formulas of one kind are the same exactly if the
instants are the same, and bounds in the order of their instants have formulas in strict order, but for a
leap second and the second before it: these have one formula. -/
theorem formula_denotes_literal (hs : ofText? s = some a) (ht : ofText? t = some b) :
    (∀ m : Moment, m.Writes (Text.trim s.toList) ∧ m.Exists ↔ m = a) ∧
    Bound.HasFormula (⟨s⟩ : TemporalValue) a.formula ∧ calls? a.formula = some a.calls ∧
    (a.SameKind b → (a.formula = b.formula ↔ a.instant = b.instant ∨ a.LeapsTo b ∨ b.LeapsTo a)) ∧
    (Bound.order (⟨s⟩ : TemporalValue) ⟨t⟩ = .lt → ∃ lower upper, calls? a.formula = some lower ∧
      calls? b.formula = some upper ∧ (denotedParts lower < denotedParts upper ↔ ¬ a.LeapsTo b)) := by
  have aExists := (ofChars?_eq_some_iff.1 hs).2
  have bExists := (ofChars?_eq_some_iff.1 ht).2
  refine ⟨fun m => ?_, hasFormula_moment hs, calls?_formula a, fun kind => ?_, fun h => ?_⟩
  · rw [← ofChars?_eq_some_iff]
    constructor
    · exact fun h => Option.some.inj (h.symm.trans hs)
    · rintro rfl
      exact hs
  · exact (formula_eq_iff kind).trans (denotedParts_eq_iff aExists bExists)
  · rw [order_moment hs ht] at h
    exact ⟨_, _, calls?_formula a, calls?_formula b, denotedParts_lt_iff aExists bExists h⟩

end Texts

/-- The last second of 2016, which is a leap second, comes after the second before it. -/
theorem formula_denotes_literal_newYear :
    let last : Moment := .both ⟨2016, 12, 31⟩ ⟨23, 59, 59⟩
    let leap : Moment := .both ⟨2016, 12, 31⟩ ⟨23, 59, 60⟩
    ofText? "2016-12-31T23:59:59" = some last ∧ ofText? "2016-12-31 23:59:60" = some leap ∧
      last.compare leap = .lt ∧ last.formula = leap.formula := by
  have hlast : ofText? "2016-12-31T23:59:59" = some (.both ⟨2016, 12, 31⟩ ⟨23, 59, 59⟩) := by decide
  have hleap : ofText? "2016-12-31 23:59:60" = some (.both ⟨2016, 12, 31⟩ ⟨23, 59, 60⟩) := by decide
  refine ⟨hlast, hleap, by decide, ?_⟩
  exact ((formula_denotes_literal hlast hleap).2.2.2.1 trivial).2 (.inr (.inl ⟨rfl, rfl, rfl, rfl⟩))

/-- Two times are different instants and have one formula, which calls `TIME` with another second than the
text of the later one, and than its instant shows. -/
theorem one_formula_of_leap_second :
    ofText? "12:00:59" = some (.clock ⟨12, 0, 59⟩) ∧ ofText? "12:00:60" = some (.clock ⟨12, 0, 60⟩) ∧
      (Moment.clock ⟨12, 0, 59⟩).instant ≠ (Moment.clock ⟨12, 0, 60⟩).instant ∧
      (Moment.clock ⟨12, 0, 59⟩).formula = "TIME(12,0,59)" ∧
      (Moment.clock ⟨12, 0, 60⟩).formula = "TIME(12,0,59)" ∧
      (Moment.clock ⟨12, 0, 60⟩).instantText = "-262143-01-01 12:00:60" := by
  refine ⟨by decide, by decide, by decide, by decide +kernel, by decide +kernel, by decide +kernel⟩

end Moment

end Workbook

import Mathlib.Data.List.TakeWhile
import Workbook.Moment
import Workbook.Proofs.PlainDecimals

/-!
# Texts of dates and times

What it is for a date and a time to be written in a text, said without a reader: which digits stand in it,
with which blanks in front of them and which marks between them. The readers find a day and a clock exactly
if they are written and exist. So a text writes one moment at most.
-/

namespace Workbook

open Text

/-! ## Written forms -/

/-- A number is written with at most some digits, with blanks in front of them. -/
def WritesNumber (width n : Nat) (cs : List Char) : Prop :=
  ∃ blanks digits, cs = blanks ++ digits ∧ (∀ c ∈ blanks, isBlank c) ∧ IsDigits digits ∧
    digits.length ≤ width ∧ readDecimal digits = n

/-- A year is written with at most four digits, or with a sign and any number of digits. -/
inductive WritesYear : Int → List Char → Prop
  | plain {n : Nat} {cs : List Char} (number : WritesNumber 4 n cs) : WritesYear n cs
  | plus {blanks digits : List Char} (blank : ∀ c ∈ blanks, isBlank c) (isDigits : IsDigits digits) :
    WritesYear (readDecimal digits : Nat) (blanks ++ '+' :: digits)
  | minus {blanks digits : List Char} (blank : ∀ c ∈ blanks, isBlank c) (isDigits : IsDigits digits) :
    WritesYear (-(readDecimal digits : Nat)) (blanks ++ '-' :: digits)

/-- A day is written as its year, its month and its day with hyphens between them. -/
def Day.Writes (d : Day) (cs : List Char) : Prop :=
  ∃ year month day, cs = year ++ '-' :: (month ++ '-' :: day) ∧ WritesYear d.year year ∧
    WritesNumber 2 d.month month ∧ WritesNumber 2 d.day day

/-- A clock is written as its hour, its minute and its second with colons between them. The second may be
left out, and then it is zero. -/
inductive Clock.Writes : Clock → List Char → Prop
  | long {h m s : Nat} {hour minute second : List Char} (hh : WritesNumber 2 h hour)
    (hm : WritesNumber 2 m minute) (hs : WritesNumber 2 s second) :
    Writes ⟨h, m, s⟩ (hour ++ ':' :: (minute ++ ':' :: second))
  | short {h m : Nat} {hour minute : List Char} (hh : WritesNumber 2 h hour) (hm : WritesNumber 2 m minute) :
    Writes ⟨h, m, 0⟩ (hour ++ ':' :: minute)

/-- A moment is written as a day or a clock, or as both with a divider between them. The divider is the
first of the text. -/
inductive Moment.Writes : Moment → List Char → Prop
  | day {d : Day} {cs : List Char} (written : d.Writes cs) (whole : ∀ c ∈ cs, isDivider c = false) :
    Writes (.day d) cs
  | clock {c : Clock} {cs : List Char} (written : c.Writes cs) (whole : ∀ c ∈ cs, isDivider c = false) :
    Writes (.clock c) cs
  | both {d : Day} {c : Clock} {date time : List Char} {divider : Char} (day : d.Writes date)
    (clock : c.Writes time) (whole : ∀ c ∈ date, isDivider c = false) (divides : isDivider divider) :
    Writes (.both d c) (date ++ divider :: time)

/-- The day is in the calendar and in the range of years. -/
structure Day.Exists (d : Day) : Prop where
  year : firstYear ≤ d.year ∧ d.year ≤ lastYear
  month : 1 ≤ d.month ∧ d.month ≤ 12
  day : 1 ≤ d.day ∧ d.day ≤ monthLength d.year d.month

/-- The clock shows a time of some day, a leap second included. -/
structure Clock.Exists (c : Clock) : Prop where
  hour : c.hour ≤ 23
  minute : c.minute ≤ 59
  second : c.second ≤ 60

/-- The day and the clock of a moment exist. -/
def Moment.Exists : Moment → Prop
  | .day d => d.Exists
  | .clock c => c.Exists
  | .both d c => d.Exists ∧ c.Exists

/-- A day is made of its parts exactly if it exists. -/
theorem Day.ofParts?_eq_some_iff {year : Int} {month day : Nat} {d : Day} :
    ofParts? year month day = some d ↔ d = ⟨year, month, day⟩ ∧ d.Exists := by
  unfold ofParts?
  simp only [Bool.and_eq_true, decide_eq_true_eq]
  constructor
  · intro h
    split at h
    · rename_i parts
      obtain rfl := Option.some.inj h
      exact ⟨rfl, ⟨parts.1.1.1.1.1, parts.1.1.1.1.2⟩, ⟨parts.1.1.1.2, parts.1.1.2⟩, parts.1.2, parts.2⟩
    · cases h
  · rintro ⟨rfl, ⟨first, last⟩, ⟨january, december⟩, start, stop⟩
    exact if_pos ⟨⟨⟨⟨⟨first, last⟩, january⟩, december⟩, start⟩, stop⟩

/-- A clock is made of its parts exactly if it exists. -/
theorem Clock.ofParts?_eq_some_iff {hour minute second : Nat} {c : Clock} :
    ofParts? hour minute second = some c ↔ c = ⟨hour, minute, second⟩ ∧ c.Exists := by
  unfold ofParts?
  simp only [Bool.and_eq_true, decide_eq_true_eq]
  constructor
  · intro h
    split at h
    · rename_i parts
      obtain rfl := Option.some.inj h
      exact ⟨rfl, parts.1.1, parts.1.2, parts.2⟩
    · cases h
  · rintro ⟨rfl, hour, minute, second⟩
    exact if_pos ⟨⟨hour, minute⟩, second⟩

/-! ## Numbers -/

section Numbers

variable {width n : Nat} {front rest digits : List Char}

/-- Digits begin with no blank and no sign. -/
theorem IsDigits.exists_cons (h : IsDigits digits) : ∃ c cs, digits = c :: cs ∧ isDigit c :=
  IsNumeral.start (.inl h)

/-- Digits stop a class without digits. -/
theorem IsDigits.stopsAt (h : IsDigits digits) {test : Char → Bool}
    (none : ∀ c, isDigit c → test c = false) : StopsAt test (digits ++ rest) := by
  obtain ⟨c, cs, rfl, hc⟩ := h.exists_cons
  intro d hd
  cases hd
  exact none c hc

/-- What stops at a digit stops at it wherever it is cut off. -/
theorem StopsAt.take {test : Char → Bool} (stop : StopsAt test rest) (k : Nat) : StopsAt test (rest.take k) := by
  intro c hc
  cases k with
  | zero => cases hc
  | succ k => exact stop c (by rwa [List.head?_take, if_neg (Nat.succ_ne_zero k)] at hc)

/-- Blanks in front of a number belong to it. -/
theorem WritesNumber.cons_blanks {blanks : List Char} (blank : ∀ c ∈ blanks, isBlank c)
    (h : WritesNumber width n front) : WritesNumber width n (blanks ++ front) := by
  obtain ⟨more, digits, rfl, hmore, hdigits⟩ := h
  refine ⟨blanks ++ more, digits, (List.append_assoc _ _ _).symm, ?_, hdigits⟩
  intro c hc
  obtain hc | hc := List.mem_append.1 hc
  · exact blank c hc
  · exact hmore c hc

/-- What is read of a number is written in front of what follows it. -/
theorem writesNumber_of_readNumber {cs : List Char} (h : readNumber width cs = some (n, rest)) :
    ∃ front, cs = front ++ rest ∧ WritesNumber width n front := by
  simp only [readNumber] at h
  generalize hafter : cs.dropWhile isBlank = after at h
  generalize hdigits : (after.take width).takeWhile isDigit = digits at h
  split at h
  · cases h
  · rename_i some_
    obtain ⟨rfl, rfl⟩ := Prod.mk.inj (Option.some.inj h)
    have hprefix : digits <+: after :=
      hdigits ▸ (List.takeWhile_prefix _).trans (List.take_prefix width after)
    obtain ⟨rest, rfl⟩ := hprefix
    refine ⟨cs.takeWhile isBlank ++ digits, ?_, cs.takeWhile isBlank, digits, rfl, ?_, ⟨?_, ?_⟩, ?_, rfl⟩
    · rw [List.drop_left, List.append_assoc, ← hafter, List.takeWhile_append_dropWhile]
    · exact fun c hc => List.mem_takeWhile_imp hc
    · exact fun hnil => some_ (List.isEmpty_iff.2 hnil)
    · exact fun c hc => List.mem_takeWhile_imp (hdigits ▸ hc)
    · rw [← hdigits]
      exact (List.takeWhile_sublist _).length_le.trans (List.length_take_le _ _)

/-- A number is read when no digit follows it. -/
theorem readNumber_append (h : WritesNumber width n front) (stop : StopsAt isDigit rest) :
    readNumber width (front ++ rest) = some (n, rest) := by
  obtain ⟨blanks, digits, rfl, blank, isDigits, length, rfl⟩ := h
  have hafter : (blanks ++ digits ++ rest).dropWhile isBlank = digits ++ rest := by
    rw [List.append_assoc, dropWhile_append blank (isDigits.stopsAt fun c => not_blank_of_isDigit)]
  have htake : ((digits ++ rest).take width).takeWhile isDigit = digits := by
    rw [List.take_append, List.take_of_length_le length]
    exact takeWhile_append isDigits.2 (stop.take _)
  have hsome : digits.isEmpty = false := List.isEmpty_eq_false_iff.2 isDigits.1
  simp only [readNumber, hafter, htake, hsome, List.drop_left, Bool.false_eq_true, if_false]

end Numbers

/-! ## Years -/

section Years

variable {year : Int} {front rest : List Char}

/-- What is read of a year is written in front of what follows it. -/
theorem writesYear_of_readYear {cs : List Char} (h : readYear cs = some (year, rest)) :
    ∃ front, cs = front ++ rest ∧ WritesYear year front := by
  have blank : ∀ c ∈ cs.takeWhile isBlank, isBlank c := fun c hc => List.mem_takeWhile_imp hc
  have hcs : cs.takeWhile isBlank ++ cs.dropWhile isBlank = cs := List.takeWhile_append_dropWhile
  have signed {after : List Char} (hsome : ¬(after.takeWhile isDigit).isEmpty) :
      IsDigits (after.takeWhile isDigit) ∧
        after = after.takeWhile isDigit ++ after.drop (after.takeWhile isDigit).length := by
    refine ⟨⟨fun hnil => hsome (List.isEmpty_iff.2 hnil), fun c hc => List.mem_takeWhile_imp hc⟩, ?_⟩
    rw [Decimal.drop_length_takeWhile, List.takeWhile_append_dropWhile]
  unfold readYear at h
  split at h
  · rename_i after hafter
    dsimp only at h
    split at h
    · cases h
    · rename_i hsome
      obtain ⟨rfl, rfl⟩ := Prod.mk.inj (Option.some.inj h)
      refine ⟨_, ?_, .minus blank (signed hsome).1⟩
      rw [List.append_assoc, List.cons_append, ← (signed hsome).2, ← hafter, hcs]
  · rename_i after hafter
    dsimp only at h
    split at h
    · cases h
    · rename_i hsome
      obtain ⟨rfl, rfl⟩ := Prod.mk.inj (Option.some.inj h)
      refine ⟨_, ?_, .plus blank (signed hsome).1⟩
      rw [List.append_assoc, List.cons_append, ← (signed hsome).2, ← hafter, hcs]
  · obtain ⟨⟨n, more⟩, hread, heq⟩ := Option.map_eq_some_iff.1 h
    obtain ⟨rfl, rfl⟩ := Prod.mk.inj heq
    obtain ⟨front, hfront, hwritten⟩ := writesNumber_of_readNumber hread
    exact ⟨_, by rw [List.append_assoc, ← hfront, hcs], .plain (hwritten.cons_blanks blank)⟩

/-- A year is read when no digit follows it. -/
theorem readYear_append (h : WritesYear year front) (stop : StopsAt isDigit rest) :
    readYear (front ++ rest) = some (year, rest) := by
  have signed {blanks digits : List Char} {sign : Char} (blank : ∀ c ∈ blanks, isBlank c)
      (hsign : isBlank sign = false) :
      (blanks ++ sign :: digits ++ rest).dropWhile isBlank = sign :: (digits ++ rest) := by
    rw [List.append_assoc, List.cons_append]
    refine dropWhile_append blank fun c hc => ?_
    cases hc
    exact hsign
  cases h with
  | plain number =>
    have hread := readNumber_append number stop
    obtain ⟨blanks, digits, rfl, blank, isDigits, -⟩ := number
    have hafter : (blanks ++ digits ++ rest).dropWhile isBlank = digits ++ rest := by
      rw [List.append_assoc, dropWhile_append blank (isDigits.stopsAt fun c => not_blank_of_isDigit)]
    have hstart : (digits ++ rest).dropWhile isBlank = digits ++ rest :=
      dropWhile_of_stopsAt (isDigits.stopsAt fun c => not_blank_of_isDigit)
    simp only [readNumber, hafter] at hread
    unfold readYear
    rw [hafter]
    obtain ⟨c, cs, rfl, hc⟩ := isDigits.exists_cons
    split
    · rename_i heq
      cases heq
      cases hc
    · rename_i heq
      cases heq
      cases hc
    · simp only [readNumber, hstart]
      rw [hread]
      rfl
  | plus blank isDigits =>
    rw [readYear, signed blank (by decide)]
    simp only [takeWhile_append isDigits.2 stop, List.isEmpty_eq_false_iff.2 isDigits.1, List.drop_left,
      Bool.false_eq_true, if_false]
  | minus blank isDigits =>
    rw [readYear, signed blank (by decide)]
    simp only [takeWhile_append isDigits.2 stop, List.isEmpty_eq_false_iff.2 isDigits.1, List.drop_left,
      Bool.false_eq_true, if_false]

end Years

/-! ## Days and clocks -/

/-- Marks are no digits. -/
theorem stopsAt_cons {c : Char} (h : isDigit c = false) (rest : List Char) : StopsAt isDigit (c :: rest) := by
  intro d hd
  cases hd
  exact h

theorem stopsAt_nil : StopsAt isDigit [] := fun c hc => by cases hc

/-- A character is expected with success exactly if it comes next. -/
theorem expect_eq_some_iff {c : Char} {cs rest : List Char} : expect c cs = some rest ↔ cs = c :: rest := by
  cases cs with
  | nil => simp [expect]
  | cons d more =>
    unfold expect
    split <;> simp_all

theorem expect_cons (c : Char) (rest : List Char) : expect c (c :: rest) = some rest := if_pos rfl

/-- A text is at its end exactly if nothing is left. -/
theorem atEnd_eq_some_iff {cs : List Char} {u : Unit} : atEnd cs = some u ↔ cs = [] := by
  cases cs <;> simp [atEnd]

/-- A day is read exactly if it is written and exists. -/
theorem readDay_eq_some_iff {cs : List Char} {d : Day} : readDay cs = some d ↔ d.Writes cs ∧ d.Exists := by
  simp only [readDay, Option.bind_eq_bind, Option.bind_eq_some_iff, Prod.exists, expect_eq_some_iff,
    atEnd_eq_some_iff, Day.ofParts?_eq_some_iff]
  constructor
  · rintro ⟨year, _, hyear, _, rfl, month, _, hmonth, _, rfl, day, _, hday, _, rfl, rfl, exists_⟩
    obtain ⟨y, rfl, hy⟩ := writesYear_of_readYear hyear
    obtain ⟨m, rfl, hm⟩ := writesNumber_of_readNumber hmonth
    obtain ⟨k, rfl, hk⟩ := writesNumber_of_readNumber hday
    exact ⟨⟨y, m, k, by simp, hy, hm, hk⟩, exists_⟩
  · rintro ⟨⟨y, m, k, rfl, hy, hm, hk⟩, exists_⟩
    have hday := readNumber_append hk stopsAt_nil
    rw [List.append_nil] at hday
    exact ⟨d.year, _, readYear_append hy (stopsAt_cons (by decide) _), _, rfl, d.month, _,
      readNumber_append hm (stopsAt_cons (by decide) _), _, rfl, d.day, [], hday, (), rfl, rfl, exists_⟩

/-- A clock is read with its second exactly from what writes it so. -/
theorem readLongClock_eq_some_iff {cs : List Char} {c : Clock} : readLongClock cs = some c ↔
    (∃ hour minute second, cs = hour ++ ':' :: (minute ++ ':' :: second) ∧ WritesNumber 2 c.hour hour ∧
      WritesNumber 2 c.minute minute ∧ WritesNumber 2 c.second second) ∧ c.Exists := by
  simp only [readLongClock, Option.bind_eq_bind, Option.bind_eq_some_iff, Prod.exists, expect_eq_some_iff,
    atEnd_eq_some_iff, Clock.ofParts?_eq_some_iff]
  constructor
  · rintro ⟨hour, _, hhour, _, rfl, minute, _, hminute, _, rfl, second, _, hsecond, _, rfl, rfl, exists_⟩
    obtain ⟨h, rfl, hh⟩ := writesNumber_of_readNumber hhour
    obtain ⟨m, rfl, hm⟩ := writesNumber_of_readNumber hminute
    obtain ⟨s, rfl, hs⟩ := writesNumber_of_readNumber hsecond
    exact ⟨⟨h, m, s, by simp, hh, hm, hs⟩, exists_⟩
  · rintro ⟨⟨h, m, s, rfl, hh, hm, hs⟩, exists_⟩
    have hsecond := readNumber_append hs stopsAt_nil
    rw [List.append_nil] at hsecond
    exact ⟨c.hour, _, readNumber_append hh (stopsAt_cons (by decide) _), _, rfl, c.minute, _,
      readNumber_append hm (stopsAt_cons (by decide) _), _, rfl, c.second, [], hsecond, (), rfl, rfl, exists_⟩

/-- A clock is read without its second exactly from what writes it so. -/
theorem readShortClock_eq_some_iff {cs : List Char} {c : Clock} : readShortClock cs = some c ↔
    (∃ hour minute, cs = hour ++ ':' :: minute ∧ WritesNumber 2 c.hour hour ∧
      WritesNumber 2 c.minute minute ∧ c.second = 0) ∧ c.Exists := by
  simp only [readShortClock, Option.bind_eq_bind, Option.bind_eq_some_iff, Prod.exists, expect_eq_some_iff,
    atEnd_eq_some_iff, Clock.ofParts?_eq_some_iff]
  constructor
  · rintro ⟨hour, _, hhour, _, rfl, minute, _, hminute, _, rfl, rfl, exists_⟩
    obtain ⟨h, rfl, hh⟩ := writesNumber_of_readNumber hhour
    obtain ⟨m, rfl, hm⟩ := writesNumber_of_readNumber hminute
    exact ⟨⟨h, m, by simp, hh, hm, rfl⟩, exists_⟩
  · rintro ⟨⟨h, m, rfl, hh, hm, hs⟩, exists_⟩
    have hminute := readNumber_append hm stopsAt_nil
    rw [List.append_nil] at hminute
    refine ⟨c.hour, _, readNumber_append hh (stopsAt_cons (by decide) _), _, rfl, c.minute, [], hminute, (),
      rfl, ?_, exists_⟩
    rw [← hs]

/-- A number holds no mark. -/
theorem WritesNumber.not_mem {width n : Nat} {cs : List Char} {mark : Char} (h : WritesNumber width n cs)
    (blank : isBlank mark = false) (digit : isDigit mark = false) : mark ∉ cs := by
  obtain ⟨blanks, digits, rfl, hblanks, hdigits, -⟩ := h
  rw [List.mem_append, not_or]
  exact ⟨fun h => Bool.eq_false_iff.1 blank (hblanks mark h),
    fun h => Bool.eq_false_iff.1 digit (hdigits.2 mark h)⟩

/-- A clock is read exactly if it is written and exists. -/
theorem readClock_eq_some_iff {cs : List Char} {c : Clock} : readClock cs = some c ↔ c.Writes cs ∧ c.Exists := by
  rw [readClock, Option.or_eq_some_iff, readLongClock_eq_some_iff, readShortClock_eq_some_iff]
  constructor
  · rintro (⟨⟨h, m, s, rfl, hh, hm, hs⟩, exists_⟩ | ⟨-, ⟨h, m, rfl, hh, hm, hs⟩, exists_⟩)
    · exact ⟨.long hh hm hs, exists_⟩
    · obtain ⟨hour, minute, second⟩ := c
      subst hs
      exact ⟨.short hh hm, exists_⟩
  · rintro ⟨written, exists_⟩
    cases written with
    | long hh hm hs => exact .inl ⟨⟨_, _, _, rfl, hh, hm, hs⟩, exists_⟩
    | short hh hm =>
      have hminute := readNumber_append hm stopsAt_nil
      rw [List.append_nil] at hminute
      refine .inr ⟨?_, ⟨_, _, rfl, hh, hm, rfl⟩, exists_⟩
      -- the second colon of a long clock is missing
      simp only [readLongClock, readNumber_append hh (stopsAt_cons (c := ':') (by decide) _), expect_cons, hminute,
        Option.bind_eq_bind, Option.bind_some]
      rfl

/-! ## Moments -/

namespace Moment

/-- A clock is written without hyphens. -/
theorem hyphen_not_mem_clock {c : Clock} {cs : List Char} (h : c.Writes cs) : '-' ∉ cs := by
  have number {width n : Nat} {front : List Char} (h : WritesNumber width n front) : '-' ∉ front :=
    h.not_mem (by decide) (by decide)
  cases h with
  | long hh hm hs => simp [number hh, number hm, number hs]
  | short hh hm => simp [number hh, number hm]

/-- What is written as a day is no clock. -/
theorem readDay_eq_none_of_clock {c : Clock} {cs : List Char} (h : c.Writes cs) : readDay cs = none := by
  refine Option.eq_none_iff_forall_ne_some.2 fun d hday => hyphen_not_mem_clock h ?_
  obtain ⟨⟨y, m, k, rfl, -⟩, -⟩ := readDay_eq_some_iff.1 hday
  simp

/-- What stops at the first divider. -/
theorem stopsAt_divider {divider : Char} (divides : isDivider divider) (time : List Char) :
    StopsAt (!isDivider ·) (divider :: time) := by
  intro c hc
  cases hc
  simp only [divides, Bool.not_true]

/-- A moment is read from characters exactly if it is written in them, apart from the blanks around it, and
exists. -/
theorem ofChars?_eq_some_iff {cs : List Char} {m : Moment} :
    ofChars? cs = some m ↔ m.Writes (trim cs) ∧ m.Exists := by
  simp only [ofChars?, Decimal.drop_length_takeWhile]
  generalize trim cs = cs
  have hfront : ∀ c ∈ cs.takeWhile (!isDivider ·), isDivider c = false := fun c hc => by
    simpa using List.mem_takeWhile_imp hc
  have hcut : cs.takeWhile (!isDivider ·) ++ cs.dropWhile (!isDivider ·) = cs :=
    List.takeWhile_append_dropWhile
  have hwhole {date : List Char} (h : ∀ c ∈ date, isDivider c = false) : ∀ c ∈ date, !isDivider c :=
    fun c hc => by rw [h c hc]; rfl
  constructor
  · intro h
    split at h
    · rename_i divider time hrest
      simp only [Option.bind_eq_bind, Option.bind_eq_some_iff] at h
      obtain ⟨d, hday, c, hclock, hm⟩ := h
      obtain rfl := Option.some.inj hm
      obtain ⟨day, dayExists⟩ := readDay_eq_some_iff.1 hday
      obtain ⟨clock, clockExists⟩ := readClock_eq_some_iff.1 hclock
      have divides := List.head?_dropWhile_not (!isDivider ·) cs
      rw [hrest] at divides hcut
      rw [← hcut]
      exact ⟨.both day clock hfront (by simpa using divides), dayExists, clockExists⟩
    · rename_i hrest
      rw [hrest, List.append_nil] at hcut
      rw [hcut] at hfront
      rw [Option.or_eq_some_iff, Option.map_eq_some_iff, Option.map_eq_some_iff] at h
      obtain ⟨d, hday, rfl⟩ | ⟨-, c, hclock, rfl⟩ := h
      · obtain ⟨day, dayExists⟩ := readDay_eq_some_iff.1 hday
        exact ⟨.day day hfront, dayExists⟩
      · obtain ⟨clock, clockExists⟩ := readClock_eq_some_iff.1 hclock
        exact ⟨.clock clock hfront, clockExists⟩
  · rintro ⟨written, exists_⟩
    cases written with
    | day day whole =>
      have hrest : cs.dropWhile (!isDivider ·) = [] := List.dropWhile_eq_nil_iff.2 (hwhole whole)
      simp only [hrest, readDay_eq_some_iff.2 ⟨day, exists_⟩, Option.map_some, Option.some_or]
    | clock clock whole =>
      have hrest : cs.dropWhile (!isDivider ·) = [] := List.dropWhile_eq_nil_iff.2 (hwhole whole)
      simp only [hrest, readDay_eq_none_of_clock clock, readClock_eq_some_iff.2 ⟨clock, exists_⟩,
        Option.map_none, Option.none_or, Option.map_some]
    | @both d c date time divider day clock whole divides =>
      have hstop := stopsAt_divider divides time
      simp only [takeWhile_append (hwhole whole) hstop, dropWhile_append (hwhole whole) hstop,
        readDay_eq_some_iff.2 ⟨day, exists_.1⟩, readClock_eq_some_iff.2 ⟨clock, exists_.2⟩,
        Option.bind_eq_bind, Option.bind_some]
      rfl

end Moment

end Workbook

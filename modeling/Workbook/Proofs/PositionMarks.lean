import Mathlib.Data.List.Infix
import Workbook.Document
import Workbook.Proofs.PlainDecimals

/-!
# Positions at the end of messages

A message is cut at the last place where it says that a position follows. Messages about the text of a
document say so at their end and nowhere else, so what is cut off is their position. Messages about a tree
have no position. They say it only inside a text of the document that they quote, and are cut there.
-/

namespace Workbook

/-! ## The last occurrence of a mark -/

section Occurrences

variable {α : Type} {mark xs ys : List α} {c : α}

/-- What does not begin a mark is in front of it. -/
theorem infix_of_append_left {a : α} (h : (a :: mark) <:+: xs ++ ys) (apart : a ∉ xs) : (a :: mark) <:+: ys := by
  induction xs with
  | nil => exact h
  | cons x xs ih =>
    rw [List.mem_cons, not_or] at apart
    obtain starts | inside := List.infix_cons_iff.1 h
    · exact absurd (List.cons_prefix_cons.1 starts).1 apart.1
    · exact ih inside apart.2

/-- A mark that a text begins with ends before a character that the mark does not have. -/
theorem prefix_of_append_cons (h : mark <+: xs ++ c :: ys) (apart : c ∉ mark) : mark <+: xs := by
  have through : xs ++ [c] <+: xs ++ c :: ys := ⟨ys, by simp⟩
  obtain short | long := List.prefix_or_prefix_of_prefix h through
  · obtain rfl | starts := List.prefix_concat_iff.1 short
    · exact absurd (List.mem_append_right xs List.mem_cons_self) apart
    · exact starts
  · exact absurd (long.subset (List.mem_append_right xs List.mem_cons_self)) apart

/-- A mark stands on one side of what does not belong to it. -/
theorem infix_append_cons_iff (apart : c ∉ mark) : mark <:+: xs ++ c :: ys ↔ mark <:+: xs ∨ mark <:+: ys := by
  constructor
  · intro h
    induction xs with
    | nil =>
      obtain starts | inside := List.infix_cons_iff.1 h
      · exact .inl (@prefix_of_append_cons _ mark [] ys c starts apart).isInfix
      · exact .inr inside
    | cons x xs ih =>
      obtain starts | inside := List.infix_cons_iff.1 h
      · exact .inl (@prefix_of_append_cons _ mark (x :: xs) ys c starts apart).isInfix
      · exact (ih inside).imp List.infix_cons id
  · rintro (h | h)
    · exact h.trans ⟨[], c :: ys, rfl⟩
    · exact h.trans ⟨xs ++ [c], [], by simp⟩

end Occurrences

/-! ## Numbers have no blanks -/

namespace Text

/-- There is no blank in hexadecimal digits. -/
theorem blank_not_mem_lowerHex (n : Nat) : ' ' ∉ lowerHex n := by
  have digit : ∀ d < 16, d.digitChar ≠ ' ' := by decide
  rw [lowerHex]
  induction n using Nat.strongRecOn with
  | ind n ih =>
    rw [Nat.toDigits_eq_if (by decide)]
    split
    · rename_i small
      exact fun h => digit n small (List.mem_singleton.1 h).symm
    · rw [List.mem_append, not_or]
      refine ⟨ih (n / 16) (by omega), fun h => ?_⟩
      exact digit (n % 16) (Nat.mod_lt n (by decide)) (List.mem_singleton.1 h).symm

theorem blank_not_mem_digits {ds : List Char} (h : ∀ c ∈ ds, isDigit c) : ' ' ∉ ds :=
  fun blank => by cases h ' ' blank

/-- There is no blank in the text of a whole number. -/
theorem blank_not_mem_toString (n : Int) : ' ' ∉ (toString n).toList := by
  cases n with
  | ofNat n =>
    rw [toList_toString_ofNat]
    exact blank_not_mem_digits (toDigits_spells n).1
  | negSucc n =>
    rw [toList_toString_negSucc]
    exact List.not_mem_cons_of_ne_of_not_mem (by decide) (blank_not_mem_digits (toDigits_spells (n + 1)).1)

end Text

namespace Decimal

/-- There is no blank in the digits of a number with their point or exponent. -/
theorem Shortest.blank_not_mem_tagged {s : Shortest} (digits : ∀ c ∈ s.digits, Text.isDigit c) : ' ' ∉ s.tagged := by
  have blank := Text.blank_not_mem_digits digits
  have start (n : Nat) : ' ' ∉ s.digits.take n := fun h => blank (List.mem_of_mem_take h)
  have rest (n : Nat) : ' ' ∉ s.digits.drop n := fun h => blank (List.mem_of_mem_drop h)
  have tail : ' ' ∉ s.digits.tail := fun h => blank (List.mem_of_mem_tail h)
  have exponent := Text.blank_not_mem_digits (Text.toDigits_spells s.magnitude.natAbs).1
  unfold tagged positional scientific
  split_ifs <;> simp [blank, start, rest, tail, exponent]

/-- There is no blank in the text of a number. -/
theorem blank_not_mem_taggedText (x : Float) : ' ' ∉ (taggedText x).toList := by
  rw [taggedText, textOf]
  split
  · split_ifs <;> decide
  · rename_i d _
    have body : ' ' ∉ if d.significand = 0 then ['0', '.', '0'] else (shortest .even d).tagged := by
      split_ifs with zero
      · decide
      · exact Shortest.blank_not_mem_tagged (shortest_digits .even zero).1
    rw [String.toList_ofList]
    cases d.negative with
    | true => exact List.not_mem_cons_of_ne_of_not_mem (by decide) body
    | false => exact body

end Decimal

namespace Document

variable {mark cs before : List Char}

/-- There is nothing before the last mark exactly if there is no mark. -/
theorem beforeLast_eq_none_iff (nonempty : mark ≠ []) : beforeLast mark cs = none ↔ ¬ mark <:+: cs := by
  induction cs with
  | nil => simp [beforeLast, nonempty]
  | cons c cs ih =>
    rw [beforeLast, List.infix_cons_iff]
    cases h : beforeLast mark cs with
    | some before =>
      have inside : mark <:+: cs := by
        by_contra apart
        cases h.symm.trans (ih.2 apart)
      simp [inside]
    | none =>
      simp [ih.1 h, List.isPrefixOf_iff_prefix]

/-- What is cut off begins with the last occurrence of the mark. -/
theorem beforeLast_eq_some_iff (nonempty : mark ≠ []) : beforeLast mark cs = some before ↔
    ∃ after, cs = before ++ (mark ++ after) ∧ ¬ mark <:+: (mark ++ after).tail := by
  induction cs generalizing before with
  | nil => simp [beforeLast, nonempty]
  | cons c cs ih =>
    rw [beforeLast]
    cases h : beforeLast mark cs with
    | some more =>
      obtain ⟨after, hcs, last⟩ := ih.1 h
      have inside : mark <:+: cs := ⟨more, after, by rw [hcs, List.append_assoc]⟩
      constructor
      · rintro ⟨⟩
        exact ⟨after, by rw [hcs, List.cons_append], last⟩
      · rintro ⟨after', heq, last'⟩
        cases before with
        | nil =>
          rw [← List.nil_append (mark ++ after'), ← heq] at last'
          exact absurd inside last'
        | cons d before =>
          obtain ⟨rfl, htail⟩ := List.cons.inj heq
          rw [← h, ih.2 ⟨after', htail, last'⟩]
    | none =>
      have apart := (beforeLast_eq_none_iff nonempty).1 h
      dsimp only
      constructor
      · intro heq
        split at heq
        · rename_i starts
          cases heq
          obtain ⟨after, hcs⟩ := List.isPrefixOf_iff_prefix.1 starts
          exact ⟨after, hcs.symm, by rwa [hcs]⟩
        · cases heq
      · rintro ⟨after, heq, last⟩
        cases before with
        | nil => exact if_pos (List.isPrefixOf_iff_prefix.2 ⟨after, heq.symm⟩)
        | cons d before =>
          obtain ⟨-, rfl⟩ := List.cons.inj heq
          exact absurd ⟨before, after, List.append_assoc ..⟩ apart

/-! ## Messages that are cut -/

/-- A text says that a position follows. -/
def Marked (s : String) : Prop := positionMark <:+: s.toList

instance : DecidablePred Marked := fun s => inferInstanceAs (Decidable (positionMark <:+: s.toList))

theorem positionMark_eq : positionMark = ' ' :: positionMark.tail := rfl

theorem tail_positionMark : positionMark.tail = 'a' :: positionMark.tail.tail := rfl

theorem positionMark_ne_nil : positionMark ≠ [] := List.cons_ne_nil _ _

/-- A message without a mark is left as it is. -/
theorem withoutPosition_of_not_marked {s : String} (h : ¬Marked s) : withoutPosition s = s := by
  rw [withoutPosition, (beforeLast_eq_none_iff positionMark_ne_nil).2 h]

/-- A message with a mark is cut where the last one begins. -/
theorem withoutPosition_of_last {s : String} {before after : List Char}
    (h : s.toList = before ++ (positionMark ++ after)) (last : ¬ positionMark <:+: (positionMark ++ after).tail) :
    withoutPosition s = String.ofList before := by
  rw [withoutPosition, (beforeLast_eq_some_iff positionMark_ne_nil).2 ⟨after, h, last⟩]

/-- A message is left as it is exactly if it has no mark. -/
theorem withoutPosition_eq_self_iff {s : String} : withoutPosition s = s ↔ ¬Marked s := by
  refine ⟨fun h marked => ?_, withoutPosition_of_not_marked⟩
  cases hcut : beforeLast positionMark s.toList with
  | none => exact (beforeLast_eq_none_iff positionMark_ne_nil).1 hcut marked
  | some before =>
    obtain ⟨after, hs, last⟩ := (beforeLast_eq_some_iff positionMark_ne_nil).1 hcut
    have whole := congrArg (fun t => t.toList.length) (h.symm.trans (withoutPosition_of_last hs last))
    simp only [hs, String.toList_ofList, List.length_append] at whole
    have mark : positionMark.length = 9 := by decide
    omega

/-! ## Positions of the reader -/

/-- A message with its position at the end. -/
def positioned (message : String) (line column : Nat) : String :=
  message ++ " at line " ++ toString line ++ " column " ++ toString column

/-- The position at the end of a message is what is cut off, whatever the message is. -/
theorem withoutPosition_positioned (message : String) (line column : Nat) :
    withoutPosition (positioned message line column) = message := by
  have digits (n : Nat) : ∀ c ∈ (toString n).toList, c ≠ 'a' := by
    rintro _ h rfl
    have digit := (Text.toDigits_spells n).1 'a' (by rwa [← Text.toList_toString_ofNat])
    cases digit
  have hmessage : (positioned message line column).toList = message.toList ++
      (positionMark ++ ((toString line).toList ++ (" column ".toList ++ (toString column).toList))) := by
    simp only [positioned, String.toList_append, List.append_assoc]
    rfl
  refine (withoutPosition_of_last hmessage ?_).trans String.ofList_toList
  -- a mark has an `a` that is not its first character, and here the only one comes first
  intro later
  rw [List.tail_append_of_ne_nil positionMark_ne_nil, tail_positionMark, List.cons_append] at later
  obtain starts | inside := List.infix_cons_iff.1 later
  · rw [positionMark_eq] at starts
    cases (List.cons_prefix_cons.1 starts).1
  · have member : 'a' ∈ positionMark := by decide
    have around := inside.subset member
    simp only [List.mem_append] at around
    obtain h | h | h | h := around
    · revert h; decide
    · exact digits line 'a' h rfl
    · revert h; decide
    · exact digits column 'a' h rfl

/-! ## Quoted texts -/

/-- A mark is in the concatenation of two texts if it is in one of them, if the second one does not begin like
an inner character of the mark. -/
theorem marked_append_iff (s : String) {t : String} {c : Char} (h : c ∈ t.toList.head?)
    (apart : c ∉ positionMark) : Marked (s ++ t) ↔ Marked s ∨ Marked t := by
  obtain ⟨cs, ht⟩ := List.head?_eq_some_iff.1 h
  have inner := @infix_append_cons_iff _ positionMark [] cs c apart
  rw [List.nil_append, List.infix_nil, or_iff_right positionMark_ne_nil] at inner
  rw [Marked, Marked, Marked, String.toList_append, ht, inner, infix_append_cons_iff apart]

/-- A mark does not lie across two texts if the first ends in a character that marks do not have. -/
theorem marked_append_iff' {s : String} (t : String) {c : Char} (h : c ∈ s.toList.getLast?)
    (apart : c ∉ positionMark) : Marked (s ++ t) ↔ Marked s ∨ Marked t := by
  obtain ⟨cs, hs⟩ := List.getLast?_eq_some_iff.1 h
  have inner := @infix_append_cons_iff _ positionMark cs [] c apart
  rw [List.infix_nil, or_iff_left positionMark_ne_nil] at inner
  rw [Marked, Marked, Marked, String.toList_append, hs, inner, List.append_assoc, List.singleton_append,
    infix_append_cons_iff apart]

/-- A text without blanks has no mark. -/
theorem not_marked_of_blank_not_mem {s : String} (h : ' ' ∉ s.toList) : ¬Marked s :=
  fun marked => h (marked.subset (by decide))

/-- A character is quoted as it is, or by a backslash and characters other than blanks. -/
theorem quotedChar_cases (c : Char) :
    Text.quotedChar c = [c] ∨ ∃ cs, Text.quotedChar c = '\\' :: cs ∧ ' ' ∉ cs := by
  have hex := Text.blank_not_mem_lowerHex c.toNat
  unfold Text.quotedChar
  split_ifs
  all_goals first | exact .inl rfl | exact .inr ⟨_, rfl, by simp [hex]⟩

/-- The characters of a mark are quoted as they are. -/
theorem quotedChar_of_mem_mark : ∀ c ∈ positionMark, Text.quotedChar c = [c] := by
  have all : (positionMark.all fun c => Text.quotedChar c == [c]) = true := by decide +kernel
  exact fun c hc => eq_of_beq (List.all_eq_true.1 all c hc)

/-- Characters that are quoted as they are make a text that is quoted as it is. -/
theorem flatMap_quotedChar (h : ∀ c ∈ cs, Text.quotedChar c = [c]) : cs.flatMap Text.quotedChar = cs := by
  rw [List.flatMap_congr h, List.flatMap_singleton']

/-- What is written without backslashes is quoted as it is. -/
theorem prefix_of_quoted {mark cs : List Char} (apart : '\\' ∉ mark) (h : mark <+: cs.flatMap Text.quotedChar) :
    mark <+: cs := by
  induction cs generalizing mark with
  | nil => exact h
  | cons c cs ih =>
    cases mark with
    | nil => exact List.nil_prefix
    | cons d mark =>
      obtain ⟨slash, apart⟩ := not_or.1 (List.mem_cons.not.1 apart)
      rw [List.flatMap_cons] at h
      obtain hc | ⟨ds, hc, -⟩ := quotedChar_cases c
      · rw [hc, List.singleton_append] at h
        obtain ⟨rfl, rest⟩ := List.cons_prefix_cons.1 h
        exact List.cons_prefix_cons.2 ⟨rfl, ih apart rest⟩
      · rw [hc, List.cons_append] at h
        exact absurd (List.cons_prefix_cons.1 h).1.symm slash

/-- A mark is quoted as it is, and nothing else is quoted as a mark. -/
theorem infix_quoted_iff (cs : List Char) :
    positionMark <:+: cs.flatMap Text.quotedChar ↔ positionMark <:+: cs := by
  constructor
  · intro h
    induction cs with
    | nil => exact h
    | cons c cs ih =>
      have hcons : (c :: cs).flatMap Text.quotedChar = Text.quotedChar c ++ cs.flatMap Text.quotedChar :=
        List.flatMap_cons
      obtain hc | ⟨ds, hc, blank⟩ := quotedChar_cases c
      · rw [hcons, hc, List.singleton_append] at h
        obtain starts | inside := List.infix_cons_iff.1 h
        · refine (prefix_of_quoted (by decide) ?_).isInfix
          rwa [hcons, hc]
        · exact List.infix_cons (ih inside)
      · rw [hcons, hc] at h
        rw [positionMark_eq] at h
        have outside : ' ' ∉ '\\' :: ds := by simp [blank]
        have inside := infix_of_append_left h outside
        rw [← positionMark_eq] at inside
        exact List.infix_cons (ih inside)
  · rintro ⟨front, rest, rfl⟩
    rw [List.flatMap_append, List.flatMap_append, flatMap_quotedChar quotedChar_of_mem_mark]
    exact ⟨_, _, rfl⟩

/-- A quoted text has a mark exactly if the text has one, whatever stands in front of it. -/
theorem marked_append_quoted_iff {front : String} (s : String) (clear : ¬Marked front) :
    Marked (front ++ Text.quoted s) ↔ Marked s := by
  have quote : '"' ∉ positionMark := by decide
  have hquoted : (front ++ Text.quoted s).toList =
      front.toList ++ '"' :: (s.toList.flatMap Text.quotedChar ++ ['"']) := by
    rw [String.toList_append, Text.quoted, String.toList_ofList, List.cons_append]
  rw [Marked, hquoted, infix_append_cons_iff quote, infix_append_cons_iff quote, infix_quoted_iff, List.infix_nil,
    or_iff_left positionMark_ne_nil]
  exact or_iff_right clear

/-! ## Wordings of faults -/

/-- What the wordings of found values begin with. -/
def foundWords : List String :=
  ["null", "boolean `true`", "boolean `false`", "integer `", "floating point `", "string ", "sequence", "map"]

/-- The wording of a found value has a mark only inside a text that it quotes. -/
theorem marked_append_shown_iff {front : String} (clear : ∀ word ∈ foundWords, ¬Marked (front ++ word)) (v : Json) :
    Marked (front ++ Schema.shown v) ↔ ∃ s, v = .text s ∧ Marked s := by
  have plain {v : Json} (hv : ∀ s, v ≠ .text s) (unmarked : ¬Marked (front ++ Schema.shown v)) :
      Marked (front ++ Schema.shown v) ↔ ∃ s, v = .text s ∧ Marked s :=
    ⟨fun h => absurd h unmarked, fun ⟨s, h, _⟩ => absurd h (hv s)⟩
  have ticked (word inner : String) (hword : word ∈ foundWords) (tick : '`' ∈ word.toList.getLast?)
      (blank : ' ' ∉ inner.toList) : ¬Marked (front ++ (word ++ inner ++ "`")) := by
    have first : '`' ∈ "`".toList.head? := rfl
    have last : '`' ∈ (front ++ word).toList.getLast? := by
      rw [String.toList_append, List.getLast?_append, Option.mem_def.1 tick]
      rfl
    rw [← String.append_assoc, ← String.append_assoc, marked_append_iff _ first (by decide),
      marked_append_iff' _ last (by decide)]
    rintro ((h | h) | h)
    · exact clear word hword h
    · exact not_marked_of_blank_not_mem blank h
    · revert h
      decide
  cases v with
  | null => exact plain nofun (clear _ (by decide))
  | boolean b => cases b <;> exact plain nofun (clear _ (by decide))
  | integer n => exact plain nofun (ticked "integer `" _ (by decide) rfl (Text.blank_not_mem_toString n))
  | real x => exact plain nofun (ticked "floating point `" _ (by decide) rfl (Decimal.blank_not_mem_taggedText x))
  | text s =>
    have shown : Schema.shown (.text s) = "string " ++ Text.quoted s := rfl
    rw [shown, ← String.append_assoc, marked_append_quoted_iff s (clear _ (by decide))]
    exact ⟨fun h => ⟨s, rfl, h⟩, fun ⟨_, heq, h⟩ => Json.text.inj heq ▸ h⟩
  | list items => exact plain nofun (clear "sequence" (by decide))
  | object members => exact plain nofun (clear "map" (by decide))

end Document

end Workbook

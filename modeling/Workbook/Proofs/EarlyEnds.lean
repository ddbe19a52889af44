import Mathlib.Data.List.Induction
import Mathlib.Data.List.TakeWhile
import Mathlib.Tactic.SplitIfs
import Workbook.Source

/-!
# Texts that end too early

A text that ends inside a document is rejected at its end: every byte of it has been read before the reader
finds that something is missing. The issue gets its place back from the line and the column of that end. A
column counts the bytes of its line, and its place is that of the last of these bytes. So the issue stands at
the end of the text only if the end starts a line. Otherwise it stands at the last byte and spans it.
-/

namespace Workbook

/-! ## Flaws of the end -/

namespace Json

/-- A flaw of a text that ends too early. -/
def Flaw.isEnd : Flaw → Bool
  | .endInValue | .endInList | .endInObject | .endInText => true
  | _ => false

/-- What the messages about texts that end too early begin with. -/
def endWording : String := "EOF while parsing "

/-- The messages about the end of a text are told from all others by their first words. -/
theorem Flaw.isEnd_iff_wording (f : Flaw) : endWording.toList <+: f.message.toList ↔ f.isEnd := by
  cases f <;> decide

/-- A step refuses a character for what it is, and never because the text ends. -/
def Step.AtCharacter : Step → Prop
  | .ok _ => True
  | .error (flaw, _) => flaw.isEnd = false

section Steps

variable (stack : List Frame) (c : Char)

/-- What goes wrong at the start of a value goes wrong at a character. -/
theorem startValue_atCharacter : (startValue stack c).AtCharacter := by
  simp only [startValue]
  split_ifs <;> trivial

/-- What goes wrong after a value goes wrong at a character. -/
theorem afterValue_atCharacter (value : Json) : (afterValue stack value c).AtCharacter := by
  unfold afterValue
  split
  · trivial
  · cases stack with
    | nil => rfl
    | cons frame outer => cases frame <;> dsimp only <;> split_ifs <;> trivial

/-- What goes wrong in a text goes wrong at a character. -/
theorem inText_atCharacter (role : TextRole) (chars : List Char) (phase : TextPhase) :
    (inText stack role chars phase c).AtCharacter := by
  cases phase <;> simp only [inText]
  case escape =>
    split
    · trivial
    · split <;> trivial
  case hex lead read code =>
    split
    · rfl
    · split
      · trivial
      · split <;> split_ifs <;> trivial
  all_goals split_ifs <;> trivial

/-- What goes wrong after a number goes wrong at a character. -/
theorem afterNumber_atCharacter (n : NumberState) : (afterNumber stack n c).AtCharacter := by
  unfold afterNumber
  split
  · exact afterValue_atCharacter stack c _
  · rfl

/-- What goes wrong in a number goes wrong at a character. -/
theorem inNumber_atCharacter (n : NumberState) : (inNumber stack n c).AtCharacter := by
  have after := afterNumber_atCharacter stack c n
  simp only [inNumber]
  split <;> split_ifs <;> first | trivial | assumption | (split <;> trivial)

/-- No step of the machine is refused because the text ends. -/
theorem Machine.step_atCharacter (m : Machine) : (m.step c).AtCharacter := by
  obtain ⟨stack, state⟩ := m
  have start := startValue_atCharacter stack c
  unfold Machine.step
  cases state with
  | done value => exact afterValue_atCharacter stack c value
  | text role chars phase => exact inText_atCharacter stack c role chars phase
  | number n => exact inNumber_atCharacter stack c n
  | word rest value =>
    dsimp only
    split
    · exact afterValue_atCharacter stack c value
    all_goals split_ifs <;> trivial
  | _ => dsimp only; split_ifs <;> trivial

end Steps

/-- A text that ends too early has been read to its end. -/
theorem Machine.place_of_isEnd {m : Machine} {place at_ : Nat} {cs : List Char} {flaw : Flaw}
    (h : m.run place cs = .error (flaw, at_)) (early : flaw.isEnd) : at_ = place + byteCount cs := by
  induction cs generalizing m place with
  | nil =>
    rw [Machine.run] at h
    cases hfinish : m.finish with
    | ok tree => simp [hfinish, Except.mapError] at h
    | error f =>
      simp only [hfinish, Except.mapError, Except.error.injEq, Prod.mk.injEq] at h
      exact h.2.symm
  | cons c rest ih =>
    have step := m.step_atCharacter c
    rw [Machine.run] at h
    split at h
    · rw [ih h, byteCount, Nat.add_assoc]
    · rename_i f ahead hstep
      rw [hstep] at step
      split at h
      · -- a refused character is no flaw of the end
        cases h
        exact absurd early (Bool.eq_false_iff.1 step)
      · cases h
        rfl

end Json

/-! ## Lines and columns -/

namespace Source

/-- What comes after some bytes starts a line. -/
def AtLineStart (read : List UInt8) : Prop := ∀ b ∈ read.getLast?, b = newline

instance (read : List UInt8) : Decidable (AtLineStart read) :=
  inferInstanceAs (Decidable (∀ b ∈ read.getLast?, b = newline))

/-- As many bytes as the characters of the text have. -/
theorem length_bytes (text : String) : (bytes text).length = Json.byteCount text.toList := by
  have encoded (cs : List Char) : cs.utf8Encode.size = Json.byteCount cs := by
    induction cs with
    | nil => rfl
    | cons c cs ih =>
      rw [List.utf8Encode_cons, ByteArray.size_append, ih, Json.byteCount]
      simp [List.utf8Encode]
  rw [← encoded, String.utf8Encode_toList]
  rfl

section Lines

variable {lines more : List UInt8}

/-- Whole lines are as long as their number says. -/
theorem lineStart_count (h : AtLineStart lines) :
    lineStart (lines.count newline) (lines ++ more) = lines.length := by
  induction lines with
  | nil => cases more <;> rfl
  | cons b rest ih =>
    have hrest : AtLineStart rest := by
      intro last hlast
      refine h last ?_
      rw [List.getLast?_cons, Option.mem_def.1 hlast]
      rfl
    by_cases hb : b = newline
    · subst hb
      rw [List.count_cons_self, List.cons_append, lineStart, if_pos (beq_self_eq_true _), ih hrest,
        List.length_cons]
    · -- a line that has begun ends in what is left
      obtain ⟨n, hn⟩ : ∃ n, rest.count newline = n + 1 := by
        refine Nat.exists_eq_succ_of_ne_zero fun hzero => ?_
        cases hlast : rest.getLast? with
        | none =>
          rw [List.getLast?_eq_none_iff] at hlast
          subst hlast
          exact hb (h b rfl)
        | some last =>
          have hmem : newline ∈ rest := hrest last hlast ▸ List.mem_of_getLast? hlast
          exact Nat.ne_of_gt (List.count_pos_iff.2 hmem) hzero
      have hih := ih hrest
      rw [List.count_cons_of_ne hb]
      rw [hn] at hih ⊢
      rw [List.cons_append, lineStart, if_neg (by simpa using hb), hih, List.length_cons]

/-- Bytes are whole lines and the bytes of a line that has begun. -/
theorem exists_lines (read : List UInt8) : ∃ lines begun, read = lines ++ begun ∧ AtLineStart lines ∧
    newline ∉ begun ∧ position read = (lines.count newline + 1, begun.length) := by
  let test : UInt8 → Bool := (· != newline)
  refine ⟨(read.reverse.dropWhile test).reverse, (read.reverse.takeWhile test).reverse, ?_, ?_, ?_, ?_⟩
  · rw [← List.reverse_append, List.takeWhile_append_dropWhile, List.reverse_reverse]
  · intro b hb
    rw [List.getLast?_reverse] at hb
    have hstop := List.head?_dropWhile_not test read.reverse
    rw [Option.mem_def.1 hb] at hstop
    simpa [test] using hstop
  · intro hmem
    have hall := List.mem_takeWhile_imp (List.mem_reverse.1 hmem)
    simp [test] at hall
  · have hnone : (read.reverse.takeWhile test).count newline = 0 := by
      rw [List.count_eq_zero]
      intro hmem
      have hall := List.mem_takeWhile_imp hmem
      simp [test] at hall
    have hcount : read.count newline = (read.reverse.dropWhile test).count newline := by
      rw [← List.count_reverse, ← List.takeWhile_append_dropWhile (p := test) (l := read.reverse),
        List.count_append, hnone, Nat.zero_add]
      simp [List.takeWhile_append_dropWhile]
    rw [position, hcount, List.count_reverse, List.length_reverse]

/-- The place of the column after some bytes is that of the last of them, unless a line starts there. -/
theorem byteIndex_position (read more : List UInt8) :
    byteIndex (read ++ more) (position read).1 (position read).2 =
      if AtLineStart read then read.length else read.length - 1 := by
  obtain ⟨lines, begun, rfl, hlines, hbegun, hposition⟩ := exists_lines read
  have hindex : byteIndex (lines ++ begun ++ more) (lines.count newline + 1) begun.length =
      lines.length + (begun.length - 1) := by
    rw [byteIndex, Nat.add_sub_cancel, List.append_assoc, lineStart_count hlines]
    simp only [List.length_append]
    omega
  rw [hposition, hindex]
  cases begun using List.reverseRecOn with
  | nil => simp [hlines]
  | append_singleton front last =>
    have hstart : ¬AtLineStart (lines ++ (front ++ [last])) := by
      intro h
      have hlast : last = newline := h last (by simp)
      exact hbegun (by simp [hlast])
    rw [if_neg hstart]
    simp only [List.length_append, List.length_singleton]
    omega

end Lines

/-! ## The place of the issue -/

/-- Bytes after which no line starts are some bytes. -/
theorem length_pos_of_not_atLineStart {read : List UInt8} (h : ¬AtLineStart read) : 0 < read.length := by
  refine List.length_pos_iff.2 ?_
  rintro rfl
  exact h fun b hb => by cases hb

/-- A flaw at the end of a text is placed there if a line starts there, and else at the last byte. -/
theorem place_issue_at_end (text : String) (flaw : Json.Flaw) :
    (issue text flaw (bytes text).length).place =
      if AtLineStart (bytes text) then
        .source ⟨(bytes text).length, (position (bytes text)).1, (position (bytes text)).2⟩ 0
      else .source ⟨(bytes text).length - 1, (position (bytes text)).1, (position (bytes text)).2⟩ 1 := by
  have hindex := byteIndex_position (bytes text) []
  rw [List.append_nil] at hindex
  simp only [issue, List.take_length]
  rw [hindex]
  by_cases hstart : AtLineStart (bytes text)
  · simp only [if_pos hstart, Nat.lt_irrefl, if_false]
  · have hpos := length_pos_of_not_atLineStart hstart
    have hlast : (bytes text).length - 1 < (bytes text).length := by omega
    simp only [if_neg hstart, hlast, if_true]

/-- A text that is rejected because it ends too early is located by the line and the column of its end. The
issue reaches up to the end of the text. It has no length, and so stands at the end, exactly if a line starts
there; otherwise it spans the last byte. -/
theorem early_end_is_located {text : String} {i : Issue} (h : parse text = .error i)
    (early : Json.endWording.toList <+: i.message.toList) :
    ∃ location length, i.place = .source location length ∧
      (location.line, location.column) = position (bytes text) ∧
      location.index + length = (bytes text).length ∧ length ≤ 1 ∧
      (length = 0 ↔ AtLineStart (bytes text)) := by
  rw [parse] at h
  split at h
  · cases h
  · rename_i flaw read hread
    obtain rfl := Except.error.inj h
    have hend : flaw.isEnd := flaw.isEnd_iff_wording.1 early
    have hplace : read = (bytes text).length := by
      rw [Json.Machine.place_of_isEnd hread hend, Nat.zero_add, length_bytes]
    rw [hplace, place_issue_at_end]
    by_cases hstart : AtLineStart (bytes text)
    · rw [if_pos hstart]
      exact ⟨_, _, rfl, rfl, Nat.add_zero _, Nat.zero_le 1, iff_of_true rfl hstart⟩
    · have hpos := length_pos_of_not_atLineStart hstart
      rw [if_neg hstart]
      exact ⟨_, _, rfl, rfl, Nat.sub_add_cancel hpos, Nat.le_refl 1, iff_of_false Nat.one_ne_zero hstart⟩

/-- A list that stays open in the second line. -/
theorem early_end_is_located_openList :
    ∃ i, parse "[1,\n \"x\"" = .error i ∧ Json.endWording.toList <+: i.message.toList ∧
      ∃ location length, i.place = .source location length ∧
        (location.line, location.column) = position (bytes "[1,\n \"x\"") ∧
        location.index + length = (bytes "[1,\n \"x\"").length ∧ length ≤ 1 ∧
        (length = 0 ↔ AtLineStart (bytes "[1,\n \"x\"")) := by
  have h : parse "[1,\n \"x\"" = .error (issue "[1,\n \"x\"" .endInList 8) := by rfl
  have early : Json.endWording.toList <+: (issue "[1,\n \"x\"" .endInList 8).message.toList := by decide
  exact ⟨_, h, early, early_end_is_located h early⟩

/-- An open bracket alone is rejected for its end, and yet the issue stands in front of it and spans it. -/
theorem lone_bracket_is_not_at_end :
    ∃ i, parse "[" = .error i ∧ Json.endWording.toList <+: i.message.toList ∧
      i.place = .source ⟨0, 1, 1⟩ 1 ∧ (bytes "[").length = 1 := by
  have h : parse "[" = .error (issue "[" .endInList 1) := by rfl
  refine ⟨_, h, by decide, ?_, by decide⟩
  decide +kernel

end Source

end Workbook

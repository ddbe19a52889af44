import Mathlib.Data.List.Chain
import Workbook.Format.Temporal

/-!
# Reading temporal format codes

A format code of dates and times is scanned from left to right. A backslash shows the next character, the
separators show themselves, and otherwise the longest token in front is taken. Where no two units whose
tokens begin with one letter follow each other, the code of a format is scanned as the tokens of its units
and the characters of its literals. No literal is read as a token, whatever characters it has.
-/

namespace Workbook

namespace TemporalFormat

/-! ## Tokens -/

/-- The long mark of half days. -/
def halfDay : List Char := ['A', 'M', '/', 'P', 'M']

/-- The short mark of half days. -/
def halfDayShort : List Char := ['A', '/', 'P']

/-- The tokens of format codes: the marks of half days, and one letter some times. -/
inductive IsToken : List Char → Prop
  | halfDay : IsToken halfDay
  | halfDayShort : IsToken halfDayShort
  | letters {c : Char} (letter : c.isAlpha) (n : Nat) : IsToken (List.replicate (n + 1) c)

/-- No longer token than this one is in front of a text. -/
structure IsLongest (t cs : List Char) : Prop where
  token : IsToken t
  front : t <+: cs
  longest : ∀ u, IsToken u → u <+: cs → u.length ≤ t.length

/-- A token has characters. -/
theorem IsToken.ne_nil {t : List Char} (h : IsToken t) : t ≠ [] := by
  cases h with
  | halfDay => exact List.cons_ne_nil _ _
  | halfDayShort => exact List.cons_ne_nil _ _
  | letters letter n => exact List.cons_ne_nil _ _

/-- A token begins with a letter. -/
theorem IsToken.start {c : Char} {cs : List Char} (h : IsToken (c :: cs)) : c.isAlpha := by
  generalize ht : c :: cs = t at h
  cases h with
  | halfDay => exact (List.cons.inj ht).1 ▸ rfl
  | halfDayShort => exact (List.cons.inj ht).1 ▸ rfl
  | letters letter n => exact (List.cons.inj ht).1 ▸ letter

/-- A text has one longest token in front. -/
theorem IsLongest.unique {t u cs : List Char} (ht : IsLongest t cs) (hu : IsLongest u cs) : t = u := by
  have hle := hu.longest t ht.token ht.front
  have hge := ht.longest u hu.token hu.front
  exact (List.prefix_of_prefix_length_le ht.front hu.front hle).eq_of_length (Nat.le_antisymm hle hge)

/-- The longest token in front of a text. -/
def longest? (cs : List Char) : Option (List Char) :=
  if halfDay.isPrefixOf cs then some halfDay
  else if halfDayShort.isPrefixOf cs then some halfDayShort
  else match cs with
    | [] => none
    | c :: _ => if c.isAlpha then some (cs.takeWhile (· == c)) else none

/-- Of two different characters a token of one letter has the first at most. -/
theorem length_letters_le {c d e : Char} {n : Nat} {rest : List Char} (hne : d ≠ e)
    (h : List.replicate (n + 1) c <+: d :: e :: rest) : n + 1 ≤ 1 := by
  cases n with
  | zero => exact Nat.le_refl 1
  | succ n =>
    obtain ⟨hd, htail⟩ := List.cons_prefix_cons.1 h
    obtain ⟨he, -⟩ := List.cons_prefix_cons.1 htail
    exact absurd (hd.symm.trans he) hne

/-- The letters at the front of a text that are the same. -/
theorem takeWhile_eq_replicate (c : Char) (cs : List Char) :
    ∃ n, (c :: cs).takeWhile (· == c) = List.replicate (n + 1) c := by
  have hall : ∀ d ∈ cs.takeWhile (· == c), d = c := fun d hd =>
    eq_of_beq (List.all_eq_true.1 List.all_takeWhile d hd)
  refine ⟨(cs.takeWhile (· == c)).length, ?_⟩
  rw [List.takeWhile_cons, beq_self_eq_true, if_pos rfl, List.replicate_succ]
  exact congrArg _ (List.eq_replicate_of_mem hall)

/-- The mark of half days is the longest token in front of what follows it. -/
theorem isLongest_halfDay (rest : List Char) : IsLongest halfDay (halfDay ++ rest) where
  token := .halfDay
  front := List.prefix_append _ _
  longest u hu front := by
    cases hu with
    | halfDay => exact Nat.le_refl 5
    | halfDayShort => decide
    | letters letter n =>
      rw [List.length_replicate]
      exact (length_letters_le (by decide) front).trans (by decide)

/-- The short mark of half days is the longest token in front of what follows it. -/
theorem isLongest_halfDayShort (rest : List Char) : IsLongest halfDayShort (halfDayShort ++ rest) where
  token := .halfDayShort
  front := List.prefix_append _ _
  longest u hu front := by
    cases hu with
    | halfDay =>
      obtain ⟨-, hsecond⟩ := List.cons_prefix_cons.1 front
      exact absurd (List.cons_prefix_cons.1 hsecond).1 (by decide)
    | halfDayShort => exact Nat.le_refl 3
    | letters letter n =>
      rw [List.length_replicate]
      exact (length_letters_le (by decide) front).trans (by decide)

/-- One letter some times is the longest token where no mark of half days begins and another character
follows. -/
theorem isLongest_letters {c : Char} (letter : c.isAlpha) {n : Nat} {rest : List Char}
    (long : ¬halfDay <+: List.replicate (n + 1) c ++ rest)
    (short : ¬halfDayShort <+: List.replicate (n + 1) c ++ rest) (stop : rest.head? ≠ some c) :
    IsLongest (List.replicate (n + 1) c) (List.replicate (n + 1) c ++ rest) where
  token := .letters letter n
  front := List.prefix_append _ _
  longest u hu front := by
    cases hu with
    | halfDay => exact absurd front long
    | halfDayShort => exact absurd front short
    | @letters d _ m =>
      obtain rfl : d = c := (List.cons_prefix_cons.1 front).1
      rw [List.length_replicate, List.length_replicate]
      by_contra hlonger
      -- the letter after the run would be one of the run
      have hsplit : m + 1 = (n + 1) + ((m - n - 1) + 1) := by omega
      rw [hsplit, List.replicate_add, List.prefix_append_right_inj] at front
      obtain ⟨after, rfl⟩ := front
      exact stop rfl

/-- What is found as the longest token is the longest. -/
theorem isLongest_of_longest? {t cs : List Char} (h : longest? cs = some t) : IsLongest t cs := by
  unfold longest? at h
  split at h
  · rename_i long
    cases h
    obtain ⟨rest, rfl⟩ := List.isPrefixOf_iff_prefix.1 long
    exact isLongest_halfDay rest
  · rename_i long
    split at h
    · rename_i short
      cases h
      obtain ⟨rest, rfl⟩ := List.isPrefixOf_iff_prefix.1 short
      exact isLongest_halfDayShort rest
    · rename_i short
      split at h
      · cases h
      · rename_i c cs
        split at h
        · rename_i letter
          cases h
          obtain ⟨n, hrun⟩ := takeWhile_eq_replicate c cs
          have hstop := List.head?_dropWhile_not (· == c) (c :: cs)
          have hsplit : c :: cs = List.replicate (n + 1) c ++ (c :: cs).dropWhile (· == c) := by
            rw [← hrun, List.takeWhile_append_dropWhile]
          rw [List.isPrefixOf_iff_prefix, hsplit] at long short
          rw [hrun]
          conv => arg 2; rw [hsplit]
          refine isLongest_letters letter long short fun hnext => ?_
          rw [hnext] at hstop
          simp at hstop
        · cases h

/-- In front of a text that begins with a token there is a longest one. -/
theorem exists_longest? {t cs : List Char} (h : IsToken t) (front : t <+: cs) :
    ∃ u, longest? cs = some u := by
  unfold longest?
  split
  · exact ⟨_, rfl⟩
  · rename_i long
    split
    · exact ⟨_, rfl⟩
    · rename_i short
      cases h with
      | halfDay => exact absurd (List.isPrefixOf_iff_prefix.2 front) long
      | halfDayShort => exact absurd (List.isPrefixOf_iff_prefix.2 front) short
      | letters letter n =>
        obtain ⟨rest, rfl⟩ := front
        rw [List.replicate_succ, List.cons_append]
        exact ⟨_, if_pos letter⟩

/-- A token is found exactly if it is the longest. -/
theorem longest?_eq_some_iff {t cs : List Char} : longest? cs = some t ↔ IsLongest t cs := by
  refine ⟨isLongest_of_longest?, fun h => ?_⟩
  obtain ⟨u, hu⟩ := exists_longest? h.token h.front
  rw [hu, h.unique (isLongest_of_longest? hu)]

/-! ## Scans -/

/-- What a scan finds: a character that is shown as it is, or a token. -/
inductive Piece where
  | shown (c : Char)
  | token (text : List Char)
deriving DecidableEq, Repr

/-- The characters that show themselves. -/
def separators : List Char := [' ', '-', '/', ':', '.', ',', '(', ')']

/-- The rules by which a format code is scanned. -/
inductive Scans : List Char → List Piece → Prop
  | nil : Scans [] []
  | escaped {c cs ps} (rest : Scans cs ps) : Scans ('\\' :: c :: cs) (.shown c :: ps)
  | separator {c cs ps} (separator : c ∈ separators) (rest : Scans cs ps) :
      Scans (c :: cs) (.shown c :: ps)
  | token {t cs ps} (longest : IsLongest t (t ++ cs)) (rest : Scans cs ps) :
      Scans (t ++ cs) (.token t :: ps)

/-- Scan a format code. -/
def scan? : List Char → Option (List Piece)
  | [] => some []
  | '\\' :: c :: cs => (scan? cs).map (.shown c :: ·)
  | c :: cs =>
    if c ∈ separators then (scan? cs).map (.shown c :: ·)
    else do
      let t ← longest? (c :: cs)
      let ps ← scan? (cs.drop (t.length - 1))
      return .token t :: ps
termination_by cs => cs.length
decreasing_by
  all_goals simp only [List.length_cons, List.length_drop]; omega

/-- A character after a backslash shows itself. -/
theorem scan?_escaped (c : Char) (cs : List Char) :
    scan? ('\\' :: c :: cs) = (scan? cs).map (.shown c :: ·) := by
  rw [scan?]

/-- A separator shows itself. -/
theorem scan?_separator {c : Char} (h : c ∈ separators) (cs : List Char) :
    scan? (c :: cs) = (scan? cs).map (.shown c :: ·) := by
  rw [scan?, if_pos h]
  rintro d ds rfl
  exact absurd h (by decide)

/-- No token begins with a character that shows itself, or with a backslash. -/
theorem ne_of_isAlpha {c : Char} (h : c.isAlpha) : c ∉ separators ∧ c ≠ '\\' := by
  constructor
  · have hseparators : separators.all (fun d => !d.isAlpha) = true := rfl
    intro hc
    have hc := List.all_eq_true.1 hseparators c hc
    rw [h] at hc
    cases hc
  · rintro rfl
    exact absurd h (by decide)

/-- The longest token is taken whole. -/
theorem scan?_token {t cs : List Char} (h : IsLongest t (t ++ cs)) :
    scan? (t ++ cs) = (scan? cs).map (.token t :: ·) := by
  obtain ⟨c, ds, rfl⟩ := List.exists_cons_of_ne_nil h.token.ne_nil
  obtain ⟨hseparator, hescape⟩ := ne_of_isAlpha h.token.start
  have hlongest := longest?_eq_some_iff.2 h
  rw [List.cons_append] at hlongest ⊢
  rw [scan?, if_neg hseparator, hlongest]
  · change (do let ps ← scan? ((ds ++ cs).drop ds.length); return Piece.token (c :: ds) :: ps) = _
    rw [List.drop_left]
    cases scan? cs <;> rfl
  · rintro d _ rfl
    exact absurd rfl hescape

/-- A scan follows the rules, and finds all that they allow. -/
theorem scan?_eq_some_iff {cs : List Char} {ps : List Piece} : scan? cs = some ps ↔ Scans cs ps := by
  constructor
  · intro h
    induction cs using scan?.induct generalizing ps with
    | case1 =>
      rw [scan?] at h
      cases h
      exact .nil
    | case2 c cs ih =>
      rw [scan?_escaped] at h
      obtain ⟨qs, hqs, rfl⟩ := Option.map_eq_some_iff.1 h
      exact .escaped (ih hqs)
    | case3 c cs _ separator ih =>
      rw [scan?_separator separator] at h
      obtain ⟨qs, hqs, rfl⟩ := Option.map_eq_some_iff.1 h
      exact .separator separator (ih hqs)
    | case4 c cs escape separator ih =>
      rw [scan?, if_neg separator] at h
      · obtain ⟨t, ht, h⟩ := Option.bind_eq_some_iff.1 h
        obtain ⟨qs, hqs, h⟩ := Option.bind_eq_some_iff.1 h
        cases h
        have hlongest := longest?_eq_some_iff.1 ht
        obtain ⟨d, ds, rfl⟩ := List.exists_cons_of_ne_nil hlongest.token.ne_nil
        obtain ⟨rest, hfront⟩ := hlongest.front
        obtain ⟨rfl, rfl⟩ : d = c ∧ ds ++ rest = cs := List.cons.inj hfront
        have hrest := ih (d :: ds) hqs
        rw [List.length_cons, Nat.add_sub_cancel, List.drop_left] at hrest
        exact .token hlongest hrest
      · exact escape
  · intro h
    induction h with
    | nil => rw [scan?]
    | escaped _ ih => rw [scan?_escaped, ih]; rfl
    | separator separator _ ih => rw [scan?_separator separator, ih]; rfl
    | token longest _ ih => rw [scan?_token longest, ih]; rfl

/-! ## The codes of formats -/

/-- What a part of a format is to be scanned as. -/
def pieces : TemporalPart → List Piece
  | .literal text => text.toList.map .shown
  | .unit unit length => [.token (unit.token length).toList]

/-- Two units have tokens that begin with the same letter. -/
def Clash : TemporalPart → TemporalPart → Prop
  | .unit unit length, .unit unit' length' =>
    (unit.token length).toList.head? = (unit'.token length').toList.head?
  | _, _ => False

instance : DecidableRel Clash
  | .unit unit length, .unit unit' length' =>
    inferInstanceAs (Decidable ((unit.token length).toList.head? = (unit'.token length').toList.head?))
  | .unit _ _, .literal _ => .isFalse id
  | .literal _, _ => .isFalse id

/-- No unit is followed by one that begins with the same letter, but for empty literals between them. -/
def Readable (f : TemporalFormat) : Prop :=
  (f.filter (· ≠ .literal "")).IsChain fun part next => ¬Clash part next

/-- The token of any part but the half day is one letter some times, and not the one of half days. -/
theorem token_eq_replicate {unit : TemporalUnit} (h : unit ≠ .meridiem) (length : UnitLength) :
    ∃ c n, c.isAlpha ∧ c ≠ 'A' ∧ (unit.token length).toList = List.replicate (n + 1) c := by
  refine ⟨(unit.token length).toList.headD 'A', (unit.token length).toList.length - 1, ?_⟩
  cases unit with
  | meridiem => exact absurd rfl h
  | _ => cases length <;> decide

/-- The text of a unit is a token. -/
theorem isToken_token (unit : TemporalUnit) (length : UnitLength) : IsToken (unit.token length).toList := by
  by_cases hunit : unit = .meridiem
  · subst hunit
    cases length with
    | short => exact .halfDayShort
    | long => exact .halfDay
  · obtain ⟨c, n, letter, -, htoken⟩ := token_eq_replicate hunit length
    rw [htoken]
    exact .letters letter n

/-- A unit is the longest token in front of what does not begin with its letter. -/
theorem isLongest_token {unit : TemporalUnit} {length : UnitLength} {rest : List Char}
    (stop : rest.head? ≠ (unit.token length).toList.head?) :
    IsLongest (unit.token length).toList ((unit.token length).toList ++ rest) := by
  by_cases hunit : unit = .meridiem
  · subst hunit
    cases length with
    | short => exact isLongest_halfDayShort rest
    | long => exact isLongest_halfDay rest
  · obtain ⟨c, n, letter, other, htoken⟩ := token_eq_replicate hunit length
    rw [htoken] at stop ⊢
    -- the marks of half days begin with another letter
    have hstart {mark after : List Char} (hmark : mark = 'A' :: after) :
        ¬mark <+: List.replicate (n + 1) c ++ rest := by
      subst hmark
      exact fun front => other (List.cons_prefix_cons.1 front).1.symm
    exact isLongest_letters letter (hstart rfl) (hstart rfl) stop

/-- The separators of literals are those that show themselves. -/
theorem isSeparator_iff {c : Char} : isSeparator c ↔ c ∈ separators := by
  simp [isSeparator, separators, or_assoc]

/-- A literal character shows itself. -/
theorem scan?_literalChar (c : Char) (cs : List Char) :
    scan? (literalChar c ++ cs) = (scan? cs).map (.shown c :: ·) := by
  rw [literalChar]
  split
  · rename_i separator
    exact scan?_separator (isSeparator_iff.1 separator) cs
  · exact scan?_escaped c cs

/-- A literal shows its text. -/
theorem scan?_literal (text rest : List Char) :
    scan? (text.flatMap literalChar ++ rest) = (scan? rest).map (text.map .shown ++ ·) := by
  induction text with
  | nil => exact Option.map_id'.symm
  | cons c cs ih =>
    rw [List.flatMap_cons, List.append_assoc, scan?_literalChar, ih, Option.map_map]
    rfl

/-- A literal character does not begin with a letter. -/
theorem head?_literalChar {c d : Char} (letter : d.isAlpha) (rest : List Char) :
    (literalChar c ++ rest).head? ≠ some d := by
  obtain ⟨hseparator, hescape⟩ := ne_of_isAlpha letter
  rw [literalChar]
  split
  · rename_i separator
    rintro ⟨⟩
    exact hseparator (isSeparator_iff.1 separator)
  · rintro ⟨⟩
    exact hescape rfl

/-- The code of a format starts with that of its first part. -/
theorem code_cons (part : TemporalPart) (f : TemporalFormat) : code (part :: f) = partCode part ++ code f :=
  List.flatMap_cons

/-- The code behind a unit does not begin with the letter of the unit. -/
theorem head?_code {unit : TemporalUnit} {length : UnitLength} {f : TemporalFormat}
    (nonempty : .literal "" ∉ f)
    (chain : (.unit unit length :: f).IsChain fun part next => ¬Clash part next) :
    (code f).head? ≠ (unit.token length).toList.head? := by
  have htoken := isToken_token unit length
  obtain ⟨c, cs, hc⟩ := List.exists_cons_of_ne_nil htoken.ne_nil
  rw [hc] at htoken ⊢
  cases f with
  | nil => exact Option.some_ne_none c ∘ Eq.symm
  | cons part f =>
    rw [code_cons]
    cases part with
    | literal text =>
      have htext : text.toList ≠ [] := by
        intro h
        rw [String.toList_eq_nil_iff] at h
        exact nonempty (h ▸ List.mem_cons_self)
      obtain ⟨d, ds, hds⟩ := List.exists_cons_of_ne_nil htext
      rw [partCode, hds, List.flatMap_cons, List.append_assoc]
      exact head?_literalChar htoken.start _
    | unit unit' length' =>
      obtain ⟨hclash, -⟩ := List.isChain_cons_cons.1 chain
      rw [← hc, partCode, List.head?_append_of_ne_nil _ (isToken_token unit' length').ne_nil]
      exact fun h => hclash h.symm

/-- The code of a format without empty literals is scanned as the parts of the format. -/
theorem scan?_code {f : TemporalFormat} (nonempty : .literal "" ∉ f)
    (chain : f.IsChain fun part next => ¬Clash part next) : scan? (code f) = some (f.flatMap pieces) := by
  induction f with
  | nil => rw [code, List.flatMap_nil, scan?, List.flatMap_nil]
  | cons part f ih =>
    have hrest := ih (fun h => nonempty (List.mem_cons_of_mem _ h)) chain.tail
    rw [code_cons, List.flatMap_cons]
    cases part with
    | literal text => rw [partCode, scan?_literal, hrest]; rfl
    | unit unit length =>
      have hstop := head?_code (fun h => nonempty (List.mem_cons_of_mem _ h)) chain
      rw [partCode, scan?_token (isLongest_token hstop), hrest]
      rfl

/-- Empty literals leave no trace in what is put together from parts. -/
theorem flatMap_filter {α : Type} {g : TemporalPart → List α} (empty : g (.literal "") = [])
    (f : TemporalFormat) : (f.filter (· ≠ .literal "")).flatMap g = f.flatMap g := by
  induction f with
  | nil => rfl
  | cons part f ih =>
    by_cases hpart : part = .literal ""
    · rw [List.filter_cons_of_neg (by simpa using hpart), ih, List.flatMap_cons, hpart, empty]
      rfl
    · rw [List.filter_cons_of_pos (by simpa using hpart), List.flatMap_cons, List.flatMap_cons, ih]

/-- A scan of the code of a readable format finds the tokens of its units and, between them, the characters
of its literals, and nothing else. -/
theorem pattern_reads_back (f : TemporalFormat) (h : Readable f) (ps : List Piece) :
    Scans (pattern f).toList ps ↔ ps = f.flatMap pieces := by
  have hnonempty : TemporalPart.literal "" ∉ f.filter (· ≠ .literal "") := by simp
  have hscan := scan?_code hnonempty h
  rw [code, flatMap_filter rfl, flatMap_filter rfl] at hscan
  rw [← scan?_eq_some_iff, pattern, String.toList_ofList, code, hscan, Option.some_inj]
  exact eq_comm

/-- Letters next to a month stay letters, and the slashes around a half day stay slashes. -/
theorem pattern_reads_back_between_tokens :
    Scans (pattern [.literal "mm\\", .unit .month .short, .literal "", .literal "m/", .unit .meridiem .long,
        .literal "/A", .unit .meridiem .short]).toList
      [.shown 'm', .shown 'm', .shown '\\', .token ['m'], .shown 'm', .shown '/',
        .token ['A', 'M', '/', 'P', 'M'], .shown '/', .shown 'A', .token ['A', '/', 'P']] :=
  (pattern_reads_back _ (by unfold Readable; decide) _).2 (by decide)

end TemporalFormat

end Workbook

import Workbook.Address
import Workbook.Text.Blank
import Workbook.Text.Numeral

/-!
# Reading runs of characters

What readers of formula text do at its lowest level: take the characters of a class, read a text between
quotes, and read the number that digits or column letters spell. Each reader gives back what a writer has
put in front of text that cannot go on with the same run.
-/

namespace Workbook

/-- No character of a class comes next. -/
def StopsAt (test : Char → Bool) (rest : List Char) : Prop := ∀ c ∈ rest.head?, test c = false

section Runs

variable {test : Char → Bool} {run rest : List Char}

/-- Nothing is taken where no character of the class comes next. -/
theorem takeWhile_of_stopsAt (stop : StopsAt test rest) : rest.takeWhile test = [] := by
  cases rest with
  | nil => rfl
  | cons c cs =>
    have hc : test c = false := stop c rfl
    rw [List.takeWhile_cons, hc]
    rfl

/-- Nothing is dropped where no character of the class comes next. -/
theorem dropWhile_of_stopsAt (stop : StopsAt test rest) : rest.dropWhile test = rest := by
  cases rest with
  | nil => rfl
  | cons c cs =>
    have hc : test c = false := stop c rfl
    rw [List.dropWhile_cons, hc]
    rfl

/-- What is left behind a run in front of a text begins in the run or with that text. -/
theorem head_dropWhile_append (stop : StopsAt test rest) :
    ∀ c ∈ ((run ++ rest).dropWhile test).head?, c ∈ run ∨ c ∈ rest.head? := by
  induction run with
  | nil =>
    intro c hc
    rw [List.nil_append, dropWhile_of_stopsAt stop] at hc
    exact .inr hc
  | cons d ds ih =>
    intro c hc
    rw [List.cons_append, List.dropWhile_cons] at hc
    split at hc
    · exact (ih c hc).imp_left (List.mem_cons_of_mem d)
    · cases hc
      exact .inl List.mem_cons_self

/-- A run of a class is taken whole when no character of the class comes next. -/
theorem takeWhile_append (all : ∀ c ∈ run, test c) (stop : StopsAt test rest) :
    (run ++ rest).takeWhile test = run := by
  rw [List.takeWhile_append_of_pos all, takeWhile_of_stopsAt stop, List.append_nil]

/-- A run of a class is dropped up to where the class stops. -/
theorem dropWhile_append (all : ∀ c ∈ run, test c) (stop : StopsAt test rest) :
    (run ++ rest).dropWhile test = rest := by
  rw [List.dropWhile_append_of_pos all, dropWhile_of_stopsAt stop]

end Runs

/-! ## What comes after an operand -/

/-- The characters of which one comes after an operand in a formula, unless the formula ends. -/
def closers : List Char := [')', ',', '+', '-', '*', '/', '^', '&', '=', '<', '>']

/-- The text ends, or goes on after an operand. -/
def Closes (rest : List Char) : Prop := ∀ c ∈ rest.head?, c ∈ closers

/-- What goes on after an operand goes on with no class of characters that has no closer. -/
theorem Closes.stopsAt {rest : List Char} (h : Closes rest) {test : Char → Bool}
    (none : closers.any test = false) : StopsAt test rest := by
  intro c hc
  rw [List.any_eq_false] at none
  exact Bool.eq_false_iff.2 (none c (h c hc))

/-! ## Digits -/

namespace Text

/-- The digits are the characters with the codes 48 to 57. -/
theorem isDigit_iff {c : Char} : isDigit c ↔ 48 ≤ c.toNat ∧ c.toNat ≤ 57 := by
  rw [isDigit, Bool.and_eq_true, decide_eq_true_eq, decide_eq_true_eq]
  exact Iff.rfl

/-- No digit is a blank. -/
theorem not_blank_of_isDigit {c : Char} (h : isDigit c) : isBlank c = false := by
  rw [isDigit_iff] at h
  simp only [isBlank, Bool.or_eq_false_iff, Bool.and_eq_false_imp, decide_eq_true_eq, decide_eq_false_iff_not,
    beq_eq_false_iff_ne]
  omega

/-- The character of a number below ten is a digit. -/
theorem isDigit_digitChar {k : Nat} (h : k < 10) : isDigit k.digitChar := by
  revert k
  decide

/-- The character of a number below ten has it as its value. -/
theorem digitValue_digitChar {k : Nat} (h : k < 10) : digitValue k.digitChar = k := by
  revert k
  decide

/-- One more digit makes the number ten times as large and adds its value. -/
theorem readDecimal_append (ds : List Char) (c : Char) :
    readDecimal (ds ++ [c]) = 10 * readDecimal ds + digitValue c := by
  rw [readDecimal, List.foldl_append]
  rfl

/-- The digits of a number are digits, and they spell the number. -/
theorem toDigits_spells (n : Nat) :
    (∀ c ∈ Nat.toDigits 10 n, isDigit c) ∧ readDecimal (Nat.toDigits 10 n) = n := by
  induction n using Nat.strongRecOn with
  | ind n ih =>
    rw [Nat.toDigits_eq_if (by decide)]
    split
    · rename_i small
      constructor
      · intro c hc
        rw [List.mem_singleton.1 hc]
        exact isDigit_digitChar small
      · have hv := digitValue_digitChar small
        simp only [readDecimal, List.foldl_cons, List.foldl_nil]
        omega
    · rename_i large
      obtain ⟨hdigits, hvalue⟩ := ih (n / 10) (by omega)
      have hlast : n % 10 < 10 := Nat.mod_lt n (by decide)
      constructor
      · intro c hc
        rw [List.mem_append, List.mem_singleton] at hc
        obtain hc | rfl := hc
        · exact hdigits c hc
        · exact isDigit_digitChar hlast
      · have hv := digitValue_digitChar hlast
        rw [readDecimal_append, hvalue]
        omega

/-- A number is read back from its digits. -/
theorem decimal?_toDigits (n : Nat) : decimal? (Nat.toDigits 10 n) = some n := by
  obtain ⟨hdigits, hvalue⟩ := toDigits_spells n
  rw [decimal?, hvalue, List.all_eq_true.2 hdigits, List.isEmpty_eq_false_iff.2 Nat.toDigits_ne_nil]
  rfl

/-- The text of a number is its digits. -/
theorem toList_toString_ofNat (n : Nat) : (toString (Int.ofNat n)).toList = Nat.toDigits 10 n :=
  String.toList_ofList

/-- The text of a negative number is a minus and the digits of its absolute value. -/
theorem toList_toString_negSucc (n : Nat) : (toString (Int.negSucc n)).toList = '-' :: Nat.toDigits 10 (n + 1) := by
  change ("-" ++ String.ofList (Nat.toDigits 10 (n + 1))).toList = _
  rw [String.toList_append, String.toList_ofList, String.toList_ofList]
  rfl

end Text

/-- Some digits. -/
def IsDigits (cs : List Char) : Prop := cs ≠ [] ∧ ∀ c ∈ cs, Text.isDigit c

/-- The digits of a whole number. -/
theorem isDigits_toDigits (n : Nat) : IsDigits (Nat.toDigits 10 n) :=
  ⟨Nat.toDigits_ne_nil, (Text.toDigits_spells n).1⟩

/-- A numeral: some digits, and possibly a point and more digits. -/
def IsNumeral (cs : List Char) : Prop :=
  IsDigits cs ∨ ∃ whole fraction, IsDigits whole ∧ IsDigits fraction ∧ cs = whole ++ '.' :: fraction

/-- A numeral begins with a digit. -/
theorem IsNumeral.start {cs : List Char} (h : IsNumeral cs) :
    ∃ c ds, cs = c :: ds ∧ Text.isDigit c := by
  have first {ds : List Char} (hd : IsDigits ds) (more : List Char) :
      ∃ c rest, ds ++ more = c :: rest ∧ Text.isDigit c := by
    obtain ⟨c, rest, rfl⟩ := List.exists_cons_of_ne_nil hd.1
    exact ⟨c, rest ++ more, rfl, hd.2 c List.mem_cons_self⟩
  obtain hd | ⟨whole, fraction, hwhole, -, rfl⟩ := h
  · have hcs := first hd []
    rwa [List.append_nil] at hcs
  · exact first hwhole _

/-- Read the digits in front of a text, and a point and digits that come next. -/
def numeral (cs : List Char) : List Char × List Char :=
  match cs.dropWhile Text.isDigit with
  | '.' :: rest => (cs.takeWhile Text.isDigit ++ '.' :: rest.takeWhile Text.isDigit,
      rest.dropWhile Text.isDigit)
  | rest => (cs.takeWhile Text.isDigit, rest)

/-- A numeral is read back when neither a digit nor a point comes next. -/
theorem numeral_append {cs rest : List Char} (h : IsNumeral cs) (stop : StopsAt Text.isDigit rest)
    (point : StopsAt (· == '.') rest) : numeral (cs ++ rest) = (cs, rest) := by
  obtain hdigits | ⟨whole, fraction, hwhole, hfraction, rfl⟩ := h
  · rw [numeral, takeWhile_append hdigits.2 stop, dropWhile_append hdigits.2 stop]
    split
    · rename_i rest
      have h := point '.' rfl
      simp at h
    · rfl
  · have hpoint : StopsAt Text.isDigit ('.' :: (fraction ++ rest)) := by
      intro c hc
      cases hc
      decide
    rw [List.append_assoc, List.cons_append, numeral, takeWhile_append hwhole.2 hpoint,
      dropWhile_append hwhole.2 hpoint]
    simp only [takeWhile_append hfraction.2 stop, dropWhile_append hfraction.2 stop]

/-! ## Column letters -/

namespace Address

/-- One of the letters of columns. -/
def isLetter (c : Char) : Bool := 'A' ≤ c && c ≤ 'Z'

/-- The value of a letter as a digit: `A` is one. -/
def letterValue (c : Char) : Nat := c.toNat - 64

/-- The number that letters spell in base 26 without a zero, the first being the most significant. -/
def readLetters (cs : List Char) : Nat := cs.foldl (fun n c => 26 * n + letterValue c) 0

/-- The letters of columns are the characters with the codes 65 to 90. -/
theorem isLetter_iff {c : Char} : isLetter c ↔ 65 ≤ c.toNat ∧ c.toNat ≤ 90 := by
  rw [isLetter, Bool.and_eq_true, decide_eq_true_eq, decide_eq_true_eq]
  exact Iff.rfl

/-- The letter of a number below 26 is one of columns. -/
theorem isLetter_letter {k : Nat} (h : k < 26) : isLetter (letter k) := by
  revert k
  decide

/-- The letter of a number below 26 has the next number as its value. -/
theorem letterValue_letter {k : Nat} (h : k < 26) : letterValue (letter k) = k + 1 := by
  revert k
  decide

/-- One more letter makes the number 26 times as large and adds its value. -/
theorem readLetters_append (cs : List Char) (c : Char) :
    readLetters (cs ++ [c]) = 26 * readLetters cs + letterValue c := by
  rw [readLetters, List.foldl_append]
  rfl

/-- The letters of a number are letters, and they spell the number. -/
theorem lettersFrom_spells (n : Nat) :
    (∀ c ∈ lettersFrom n, isLetter c) ∧ readLetters (lettersFrom n) = n := by
  induction n using Nat.strongRecOn with
  | ind n ih =>
    rw [lettersFrom]
    split
    · rename_i zero
      constructor
      · intro c hc
        cases hc
      · exact zero.symm
    · rename_i positive
      obtain ⟨hletters, hvalue⟩ := ih ((n - 1) / 26) (by omega)
      have hlast : (n - 1) % 26 < 26 := Nat.mod_lt _ (by decide)
      constructor
      · intro c hc
        rw [List.mem_append, List.mem_singleton] at hc
        obtain hc | rfl := hc
        · exact hletters c hc
        · exact isLetter_letter hlast
      · have hv := letterValue_letter hlast
        rw [readLetters_append, hvalue]
        omega

end Address

/-! ## Quotes -/

/-- A character of a text between quotes: the quote itself is doubled. -/
def doubled (quote c : Char) : List Char := if c = quote then [quote, quote] else [c]

/-- Read a text up to its closing quote, and what follows it. -/
def quoted? (quote : Char) : List Char → Option (List Char × List Char)
  | [] => none
  | c :: cs =>
    if c = quote then
      match cs with
      | [] => some ([], [])
      | d :: rest =>
        if d = quote then (quoted? quote rest).map fun (body, after) => (quote :: body, after)
        else some ([], d :: rest)
    else (quoted? quote cs).map fun (body, after) => (c :: body, after)

/-- A closing quote that is not doubled ends the text. -/
theorem quoted?_close {quote : Char} {rest : List Char} (stop : StopsAt (· == quote) rest) :
    quoted? quote (quote :: rest) = some ([], rest) := by
  cases rest with
  | nil => simp only [quoted?, if_true]
  | cons d rest =>
    have hd : d ≠ quote := beq_eq_false_iff_ne.1 (stop d rfl)
    simp only [quoted?, if_true, if_neg hd]

/-- A text with its quotes doubled is read back. -/
theorem quoted?_doubled {quote : Char} (body : List Char) {rest : List Char}
    (stop : StopsAt (· == quote) rest) :
    quoted? quote (body.flatMap (doubled quote) ++ quote :: rest) = some (body, rest) := by
  induction body with
  | nil => exact quoted?_close stop
  | cons c cs ih =>
    rw [List.flatMap_cons, List.append_assoc]
    by_cases hc : c = quote
    · subst hc
      simp only [doubled, if_true, List.cons_append, List.nil_append, quoted?, ih, Option.map_some]
    · rw [doubled, if_neg hc, List.singleton_append]
      unfold quoted?
      rw [if_neg hc, ih]
      rfl

/-- A text without quotes is written as it is. -/
theorem flatMap_doubled {quote : Char} {body : List Char} (h : ∀ c ∈ body, c ≠ quote) :
    body.flatMap (doubled quote) = body := by
  induction body with
  | nil => rfl
  | cons c cs ih =>
    have hc : c ≠ quote := h c List.mem_cons_self
    have hcs : cs.flatMap (doubled quote) = cs := ih fun d hd => h d (List.mem_cons_of_mem c hd)
    rw [List.flatMap_cons, hcs, doubled, if_neg hc]
    rfl

end Workbook

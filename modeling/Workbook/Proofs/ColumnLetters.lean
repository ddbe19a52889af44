import Mathlib.Data.Char
import Mathlib.Data.List.Induction
import Mathlib.Data.List.Lex
import Mathlib.Order.Monotone.Basic
import Workbook.Proofs.Grammar.Scanning

/-!
# Letters of columns

Columns are numbered in base 26 without a zero: `A` to `Z`, then `AA` and so on. The digits are taken off
the number from one, the last one first, and one is subtracted before each division. Every text of letters
is the name of exactly one column, and columns come in the order of their names: shorter names first, and
names of one length by the alphabet.
-/

namespace Workbook.Address

/-! ## The digits of a number -/

/-- The digits that are taken off a number from one, the last one first. The digit of `A` is zero. -/
def letterDigits (n : Nat) : List Nat :=
  if _h : n = 0 then [] else (n - 1) % 26 :: letterDigits ((n - 1) / 26)
termination_by n
decreasing_by omega

/-- Letters are written from the digits, the last one at the end. -/
theorem lettersFrom_eq_digits (n : Nat) : lettersFrom n = ((letterDigits n).map letter).reverse := by
  induction n using letterDigits.induct with
  | case1 => rw [lettersFrom, letterDigits]; rfl
  | case2 n hn ih =>
    rw [lettersFrom, letterDigits, dif_neg hn, dif_neg hn, List.map_cons, List.reverse_cons, ih]

/-- Every digit of a number in letters is one of twenty-six. -/
theorem letterDigits_lt (n : Nat) : ∀ d ∈ letterDigits n, d < 26 := by
  induction n using letterDigits.induct with
  | case1 =>
    intro d hd
    rw [letterDigits] at hd
    cases hd
  | case2 n hn ih =>
    intro d hd
    rw [letterDigits, dif_neg hn, List.mem_cons] at hd
    obtain rfl | hd := hd
    · exact Nat.mod_lt _ (by decide)
    · exact ih d hd

/-- Every digit of a number is a byte. -/
theorem isSome_byte? {n d : Nat} (h : d ∈ letterDigits n) : (byte? d).isSome := by
  have hdigit := letterDigits_lt n d h
  have hbyte : d < UInt8.size := Nat.lt_trans hdigit (by decide)
  rw [byte?, if_pos hbyte]
  rfl

/-! ## Names of one length -/

variable {s t : List Char}

/-- The values of letters run from one to twenty-six. -/
theorem letterValue_bounds {c : Char} (h : isLetter c) : 1 ≤ letterValue c ∧ letterValue c ≤ 26 := by
  have hc := isLetter_iff.1 h
  unfold letterValue
  omega

/-- The code of the letter of a digit. -/
theorem toNat_letter {d : Nat} (h : d < 26) : (letter d).toNat = 65 + d := by
  revert d
  decide

/-- A letter is the letter of its value. -/
theorem letter_letterValue {c : Char} (h : isLetter c) : letter (letterValue c - 1) = c := by
  have hc := isLetter_iff.1 h
  have hvalue : letterValue c = c.toNat - 64 := rfl
  have hcode : (letter (letterValue c - 1)).toNat = c.toNat := by
    rw [toNat_letter (by omega)]
    omega
  exact Char.toNat_inj.1 hcode

/-- A later letter has a greater value. -/
theorem letterValue_lt {c d : Char} (hc : isLetter c) (h : c < d) : letterValue c < letterValue d := by
  have hcode : c.toNat < d.toNat := h
  have hletter := isLetter_iff.1 hc
  unfold letterValue
  omega

/-- The number that letters spell behind letters with a number. -/
def readLettersFrom (n : Nat) (cs : List Char) : Nat := cs.foldl (fun n c => 26 * n + letterValue c) n

/-- Reading goes on from the value of the letters before. -/
theorem readLettersFrom_cons (n : Nat) (c : Char) (cs : List Char) :
    readLettersFrom n (c :: cs) = readLettersFrom (26 * n + letterValue c) cs := by
  rw [readLettersFrom, List.foldl_cons, readLettersFrom]

/-- Letters behind a smaller number spell a smaller number, whatever they are: no letter is worth more than
a step in front of it. -/
theorem readLettersFrom_lt (hs : ∀ c ∈ s, isLetter c) (ht : ∀ c ∈ t, isLetter c)
    (hlength : s.length = t.length) {m n : Nat} (h : m < n) : readLettersFrom m s < readLettersFrom n t := by
  induction s generalizing t m n with
  | nil =>
    have hnil : t = [] := List.length_eq_zero_iff.1 hlength.symm
    rw [hnil]
    exact h
  | cons c s ih =>
    cases t with
    | nil => cases hlength
    | cons d t =>
      obtain ⟨hc, hrest⟩ := List.forall_mem_cons.1 hs
      obtain ⟨hd, hrest'⟩ := List.forall_mem_cons.1 ht
      have hlow := letterValue_bounds hd
      have hhigh := letterValue_bounds hc
      have hstep : 26 * m + letterValue c < 26 * n + letterValue d := by omega
      rw [readLettersFrom_cons, readLettersFrom_cons]
      exact ih hrest hrest' (Nat.succ.inj hlength) hstep

/-- Of names of one length the earlier one in the alphabet spells the smaller number. -/
theorem readLettersFrom_lt_of_lt (hs : ∀ c ∈ s, isLetter c) (ht : ∀ c ∈ t, isLetter c)
    (hlength : s.length = t.length) (h : s < t) (n : Nat) : readLettersFrom n s < readLettersFrom n t := by
  induction s generalizing t n with
  | nil =>
    have hnil : t = [] := List.length_eq_zero_iff.1 hlength.symm
    rw [hnil] at h
    cases h
  | cons c s ih =>
    cases t with
    | nil => cases hlength
    | cons d t =>
      obtain ⟨hc, hrest⟩ := List.forall_mem_cons.1 hs
      obtain ⟨-, hrest'⟩ := List.forall_mem_cons.1 ht
      rw [readLettersFrom_cons, readLettersFrom_cons]
      obtain hcd | ⟨rfl, hst⟩ := List.cons_lt_cons_iff.1 h
      · have hvalue := letterValue_lt hc hcd
        exact readLettersFrom_lt hrest hrest' (Nat.succ.inj hlength) (by omega)
      · exact ih hrest hrest' (Nat.succ.inj hlength) hst _

/-! ## Names of different lengths -/

/-- The number from one of the first column with a number of letters. -/
def firstOfLength : Nat → Nat
  | 0 => 0
  | k + 1 => 26 * firstOfLength k + 1

/-- The first number of a length grows with the length. -/
theorem firstOfLength_mono : Monotone firstOfLength := by
  refine monotone_nat_of_le_succ fun k => ?_
  rw [firstOfLength]
  omega

/-- The columns with some number of letters are those before the first one with another letter. -/
theorem readLetters_bounds (hs : ∀ c ∈ s, isLetter c) :
    firstOfLength s.length ≤ readLetters s ∧ readLetters s < firstOfLength (s.length + 1) := by
  induction s using List.reverseRecOn with
  | nil => exact ⟨Nat.le_refl 0, Nat.one_pos⟩
  | append_singleton s c ih =>
    obtain ⟨hlow, hhigh⟩ := ih fun d hd => hs d (List.mem_append_left _ hd)
    have hc := letterValue_bounds (hs c (List.mem_append_right _ List.mem_cons_self))
    rw [readLetters_append, List.length_append, List.length_singleton, firstOfLength, firstOfLength]
    omega

/-- Letters have a smaller number than any longer ones. -/
theorem readLetters_lt_of_length (hs : ∀ c ∈ s, isLetter c) (ht : ∀ c ∈ t, isLetter c)
    (h : s.length < t.length) : readLetters s < readLetters t :=
  calc readLetters s < firstOfLength (s.length + 1) := (readLetters_bounds hs).2
    _ ≤ firstOfLength t.length := firstOfLength_mono h
    _ ≤ readLetters t := (readLetters_bounds ht).1

/-- Letters spell numbers in the order of names. -/
theorem readLetters_lt_iff (hs : ∀ c ∈ s, isLetter c) (ht : ∀ c ∈ t, isLetter c) :
    readLetters s < readLetters t ↔ s.length < t.length ∨ (s.length = t.length ∧ s < t) := by
  constructor
  · intro h
    obtain hlength | hlength | hlength := Nat.lt_trichotomy s.length t.length
    · exact .inl hlength
    · refine .inr ⟨hlength, ?_⟩
      obtain hst | rfl | hts := lt_trichotomy s t
      · exact hst
      · exact absurd h (Nat.lt_irrefl _)
      · exact absurd h (Nat.lt_asymm (readLettersFrom_lt_of_lt ht hs hlength.symm hts 0))
    · exact absurd h (Nat.lt_asymm (readLetters_lt_of_length ht hs hlength))
  · rintro (hlength | ⟨hlength, hst⟩)
    · exact readLetters_lt_of_length hs ht hlength
    · exact readLettersFrom_lt_of_lt hs ht hlength hst 0

/-! ## The numbering -/

/-- Letters are those of the number that they spell. -/
theorem lettersFrom_readLetters (hs : ∀ c ∈ s, isLetter c) : lettersFrom (readLetters s) = s := by
  induction s using List.reverseRecOn with
  | nil => rw [readLetters, List.foldl_nil, lettersFrom]; rfl
  | append_singleton s c ih =>
    have hletter : isLetter c := hs c (List.mem_append_right _ List.mem_cons_self)
    have hc := letterValue_bounds hletter
    have hrest := ih fun d hd => hs d (List.mem_append_left _ hd)
    have hpositive : 26 * readLetters s + letterValue c ≠ 0 := by omega
    have hfront : (26 * readLetters s + letterValue c - 1) / 26 = readLetters s := by omega
    have hlast : (26 * readLetters s + letterValue c - 1) % 26 = letterValue c - 1 := by omega
    rw [readLetters_append, lettersFrom, dif_neg hpositive, hfront, hlast, hrest,
      letter_letterValue hletter]

/-- Every column has a name of letters that spells its number, at most seven of them in the grid; the name
is written from digits that are bytes. No two columns have one name, every text of letters is the name of a
column, and columns come in the order of their names, shorter ones first. -/
theorem columnLetters_bijective_numbering :
    (∀ n, columnLetters n ≠ [] ∧ (∀ c ∈ columnLetters n, isLetter c) ∧
      readLetters (columnLetters n) = n + 1 ∧ (n < gridSize → (columnLetters n).length ≤ 7) ∧
      columnLetters n = ((letterDigits (n + 1)).map letter).reverse ∧
      ∀ d ∈ letterDigits (n + 1), (byte? d).isSome) ∧
    (∀ n m, columnLetters n = columnLetters m ↔ n = m) ∧
    (∀ name, (∃ n, columnLetters n = name) ↔ name ≠ [] ∧ ∀ c ∈ name, isLetter c) ∧
    ∀ n m, n < m ↔ (columnLetters n).length < (columnLetters m).length ∨
      ((columnLetters n).length = (columnLetters m).length ∧ columnLetters n < columnLetters m) := by
  have hletters (n : Nat) : ∀ c ∈ columnLetters n, isLetter c := (lettersFrom_spells (n + 1)).1
  have hvalue (n : Nat) : readLetters (columnLetters n) = n + 1 := (lettersFrom_spells (n + 1)).2
  have hnonempty (n : Nat) : columnLetters n ≠ [] := by
    intro hnil
    have hzero := hvalue n
    rw [hnil] at hzero
    cases hzero
  refine ⟨fun n => ⟨hnonempty n, hletters n, hvalue n, fun hn => ?_, lettersFrom_eq_digits (n + 1),
    fun d hd => isSome_byte? hd⟩, fun n m => ⟨fun h => ?_, fun h => h ▸ rfl⟩, fun name => ⟨?_, ?_⟩,
    fun n m => ?_⟩
  · by_contra hlong
    have hbound := (readLetters_bounds (hletters n)).1
    have height : firstOfLength 8 ≤ firstOfLength (columnLetters n).length := firstOfLength_mono (by omega)
    have hfirst : gridSize < firstOfLength 8 := by decide
    rw [hvalue] at hbound
    omega
  · have hsame := hvalue n
    rw [h, hvalue] at hsame
    omega
  · rintro ⟨n, rfl⟩
    exact ⟨hnonempty n, hletters n⟩
  · rintro ⟨hne, hname⟩
    have hone : 0 < readLetters name := by
      obtain ⟨c, cs, rfl⟩ := List.exists_cons_of_ne_nil hne
      have hbound := (readLetters_bounds hname).1
      rw [List.length_cons, firstOfLength] at hbound
      omega
    refine ⟨readLetters name - 1, ?_⟩
    rw [columnLetters, Nat.sub_add_cancel hone]
    exact lettersFrom_readLetters hname
  · rw [← readLetters_lt_iff (hletters n) (hletters m), hvalue, hvalue]
    omega

end Workbook.Address

import Workbook.Decimal.Shortest
import Workbook.Proofs.Grammar.Scanning

/-!
# The text of a finite number

A finite number is written as a numeral, which is digits and possibly a point and more digits, with a minus
sign in front of it if it is negative. Neither the search for the shortest decimal nor the place of the
point leads to another form: what the search finds has a digit other than zero, and the texts of infinities
and of what is no number are kept apart by the exponent field.
-/

namespace Workbook.Decimal

/-! ## The exponent field -/

open Float.Model UnpackedFloat in
/-- The exponent field of a finite number is not that of infinities. -/
theorem Dyadic.field_ne_special {x : Float} (finite : x.isFinite) :
    x.toBits.toNat / leadingWeight % 2048 ≠ specialField := by
  intro special
  have bits : x.toModel.toBits.toNat / 0x10000000000000 % 2048 = 2047 := special
  have exponent :
      (unpackExponent x.toModel.toBits.toBitVec : BitVec Format.binary64.exponentBits) = -1#11 := by
    apply BitVec.eq_of_toNat_eq
    simp only [unpackExponent, BitVec.toNat_cast, BitVec.extractLsb_toNat, Nat.shiftRight_eq_div_pow]
    exact bits
  have infinite : (UnpackedFloat.unpack Format.binary64 x.toModel.toBits.toBitVec).isFinite = false := by
    unfold UnpackedFloat.unpack
    rw [if_pos exponent]
    split <;> rfl
  have both := finite.symm.trans infinite
  cases both

/-- A finite number has an exact value. -/
theorem Dyadic.exists_of_isFinite {x : Float} (finite : x.isFinite) :
    ∃ d, Dyadic.ofFloat? x = some d := by
  have field : (x.toBits.toNat / leadingWeight % 2048 == specialField) = false := by
    rw [beq_eq_false_iff_ne]
    exact field_ne_special finite
  simp only [Dyadic.ofFloat?, field, Bool.false_eq_true, if_false]
  split
  · exact ⟨_, rfl⟩
  · exact ⟨_, rfl⟩

/-! ## The search -/

namespace Neighbourhood

/-- A positive interval holds no zero. -/
theorem onGrid?_ne_zero {n : Neighbourhood} {tie : Tie} {grid : Int} {c : Nat} (positive : 0 < n.low)
    (h : n.onGrid? tie grid = some c) : c ≠ 0 := by
  rintro rfl
  have hlow : 0 < n.low * (Nat.pow 2 n.exponent.toNat * Nat.pow 10 (-grid).toNat) :=
    Nat.mul_pos positive (Nat.mul_pos (Nat.pow_pos (by decide)) (Nat.pow_pos (by decide)))
  simp only [onGrid?] at h
  generalize Nat.pow 2 n.exponent.toNat * Nat.pow 10 (-grid).toNat = a at h hlow
  have outside (top : Nat) : (if n.closed then decide (n.low * a ≤ 0) && decide (0 ≤ top)
      else decide (n.low * a < 0) && decide (0 < top)) = false := by
    split
    · rw [decide_eq_false (by omega), Bool.false_and]
    · rw [decide_eq_false (by omega), Bool.false_and]
  split at h
  · cases h
  · rename_i hbelow _
    rw [Option.some.inj h, Nat.zero_mul, outside] at hbelow
    cases hbelow
  · cases h
  · rename_i hbelow _
    split at h
    · rw [Option.some.inj h, Nat.zero_mul, outside] at hbelow
      cases hbelow
    · cases h

/-- What the search finds is not zero. -/
theorem search_ne_zero {n : Neighbourhood} (positive : 0 < n.low) (tie : Tie) (power : Int)
    (counts : List Nat) : n.search tie power counts = (0, 0) ∨ (n.search tie power counts).1 ≠ 0 := by
  induction counts with
  | nil => exact .inl rfl
  | cons count more ih =>
    rw [search]
    split
    · rename_i c found
      exact .inr (onGrid?_ne_zero positive found)
    · exact ih

/-- What rounds to a number that is not zero is above zero. -/
theorem low_pos {d : Dyadic} (h : d.significand ≠ 0) : 0 < (Neighbourhood.of d).low := by
  simp only [Neighbourhood.of]
  split <;> omega

end Neighbourhood

/-! ## Its digits -/

/-- Zeros are read as zero. -/
theorem readDecimal_zeros (n : Nat) : Text.readDecimal (List.replicate n '0') = 0 := by
  induction n with
  | zero => rfl
  | succ n ih =>
    rw [List.replicate_succ', Text.readDecimal_append, ih]
    rfl

/-- Dropping as many members as a run has leaves what comes after the run. -/
theorem drop_length_takeWhile (test : Char → Bool) (cs : List Char) :
    cs.drop (cs.takeWhile test).length = cs.dropWhile test := by
  have h := @List.drop_left _ (cs.takeWhile test) (cs.dropWhile test)
  rwa [List.takeWhile_append_dropWhile] at h

/-- A number that is not zero has digits left when the zeros at its end are dropped. -/
theorem dropWhile_zero_ne_nil {c : Nat} (h : c ≠ 0) :
    (Nat.toDigits 10 c).reverse.dropWhile (· == '0') ≠ [] := by
  intro hnil
  have hsplit := List.takeWhile_append_dropWhile (p := (· == '0')) (l := (Nat.toDigits 10 c).reverse)
  rw [hnil, List.append_nil] at hsplit
  have hall := List.all_takeWhile (p := (· == '0')) (l := (Nat.toDigits 10 c).reverse)
  rw [hsplit, List.all_eq_true] at hall
  have hzeros : Nat.toDigits 10 c = List.replicate (Nat.toDigits 10 c).length '0' :=
    List.eq_replicate_of_mem fun d hd => beq_iff_eq.1 (hall d (List.mem_reverse.2 hd))
  have hvalue := readDecimal_zeros (Nat.toDigits 10 c).length
  rw [← hzeros, (Text.toDigits_spells c).2] at hvalue
  exact h hvalue

/-- The digits of a shortest decimal are digits. If none was found, the text is made of zeros only. -/
theorem shortest_digits (tie : Tie) {d : Dyadic} (h : d.significand ≠ 0) :
    (∀ c ∈ (shortest tie d).digits, Text.isDigit c) ∧
      ((shortest tie d).digits = [] → 0 < (shortest tie d).exponent) := by
  simp only [shortest]
  generalize powerBelow (d.significand * Nat.pow 2 d.exponent.toNat) (Nat.pow 2 (-d.exponent).toNat) = power
  have hsearch := Neighbourhood.search_ne_zero (Neighbourhood.low_pos h) tie power (List.range 17)
  generalize (Neighbourhood.of d).search tie power (List.range 17) = found at hsearch ⊢
  obtain ⟨c, grid⟩ := found
  simp only [drop_length_takeWhile]
  constructor
  · intro e he
    have hmem := (List.dropWhile_sublist _).mem (List.mem_reverse.1 he)
    exact (Text.toDigits_spells c).1 e (List.mem_reverse.1 hmem)
  · intro hnil
    rw [List.reverse_eq_nil_iff] at hnil
    obtain hzero | hne := hsearch
    · cases hzero
      decide
    · exact absurd hnil (dropWhile_zero_ne_nil hne)

/-! ## Its text -/

/-- The positional text of a decimal is a numeral. -/
theorem Shortest.positional_isNumeral {s : Shortest} (digits : ∀ c ∈ s.digits, Text.isDigit c)
    (h : s.digits = [] → 0 < s.exponent) : IsNumeral s.positional := by
  have zeros (n : Nat) : ∀ c ∈ List.replicate n '0', Text.isDigit c := by
    intro c hc
    rw [List.eq_of_mem_replicate hc]
    decide
  rw [positional]
  split
  · left
    constructor
    · intro hnil
      rw [List.append_eq_nil_iff, List.replicate_eq_nil_iff] at hnil
      have hpos := h hnil.1
      omega
    · intro c hc
      rw [List.mem_append] at hc
      exact hc.elim (digits c) (zeros _ c)
  · rename_i hexponent
    have hlength : s.digits.length ≠ 0 := by
      intro hzero
      have hpos := h (List.length_eq_zero_iff.1 hzero)
      omega
    right
    split
    · rename_i hmagnitude
      have hwhole : 0 < (s.magnitude + 1).toNat ∧ (s.magnitude + 1).toNat < s.digits.length := by
        rw [magnitude] at hmagnitude ⊢
        omega
      refine ⟨_, _, ⟨?_, ?_⟩, ⟨?_, ?_⟩, rfl⟩
      · intro hnil
        have hl := congrArg List.length hnil
        rw [List.length_take, List.length_nil] at hl
        omega
      · exact fun c hc => digits c (List.mem_of_mem_take hc)
      · intro hnil
        have hl := congrArg List.length hnil
        rw [List.length_drop, List.length_nil] at hl
        omega
      · exact fun c hc => digits c (List.mem_of_mem_drop hc)
    · refine ⟨['0'], List.replicate (-s.magnitude - 1).toNat '0' ++ s.digits,
        ⟨List.cons_ne_nil _ _, zeros 1⟩, ⟨?_, ?_⟩, rfl⟩
      · intro hnil
        have hl := congrArg List.length (List.append_eq_nil_iff.1 hnil).2
        exact hlength hl
      · intro c hc
        rw [List.mem_append] at hc
        exact hc.elim (zeros _ c) (digits c)

/-- A finite number is written as a numeral, with a minus sign in front of it if it is negative. -/
theorem plainText_isNumeral {x : Float} (finite : x.isFinite) :
    ∃ (negative : Bool) (body : List Char), IsNumeral body ∧
      (plainText x).toList = if negative then '-' :: body else body := by
  obtain ⟨d, hd⟩ := Dyadic.exists_of_isFinite finite
  have htext (body : List Char)
      (hbody : body = if d.significand = 0 then ['0'] else (shortest .upward d).positional) :
      (plainText x).toList = if d.negative then '-' :: body else body := by
    simp only [plainText, textOf, hd, String.toList_ofList, hbody]
  refine ⟨d.negative, _, ?_, htext _ rfl⟩
  split
  · exact .inl ⟨List.cons_ne_nil _ _, fun c hc => by rw [List.mem_singleton.1 hc]; decide⟩
  · rename_i positive
    obtain ⟨digits, h⟩ := shortest_digits .upward positive
    exact Shortest.positional_isNumeral digits h

end Workbook.Decimal

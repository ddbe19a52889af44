import Workbook.Bound
import Workbook.Proofs.PlainDecimals

/-!
# The order of numbers

Rules put their numbers in order by keys, which are read off the bits. The key of a number names the number,
negative zero included, and finite numbers in the order of their keys are in the order of their values.
-/

namespace Workbook

open Decimal

/-! ## Keys -/

/-- The key of a number with no sign bit is its magnitude. -/
theorem orderKey_of_lt {x : Float} (h : x.toBits.toNat < signWeight) :
    orderKey x = (x.toBits.toNat % signWeight : Nat) := by
  rw [orderKey, if_pos h]

/-- Negative numbers stand in the reverse order of their magnitudes, below zero. -/
theorem orderKey_of_ge {x : Float} (h : signWeight ≤ x.toBits.toNat) :
    orderKey x = -((x.toBits.toNat % signWeight : Nat) : Int) - 1 := by
  rw [orderKey, if_neg (Nat.not_lt.2 h)]

/-- The key of a number tells whether it has a sign bit. -/
theorem orderKey_nonneg {x : Float} : 0 ≤ orderKey x ↔ x.toBits.toNat < signWeight := by
  rcases Nat.lt_or_ge x.toBits.toNat signWeight with h | h
  · rw [orderKey_of_lt h]
    omega
  · rw [orderKey_of_ge h]
    omega

/-- Numbers of one key are the same number. -/
theorem orderKey_inj {x y : Float} (h : orderKey x = orderKey y) : x = y := by
  have signs : x.toBits.toNat < signWeight ↔ y.toBits.toNat < signWeight := by
    rw [← orderKey_nonneg, ← orderKey_nonneg, h]
  have bits : x.toBits.toNat = y.toBits.toNat := by
    have xBelow : x.toBits.toNat < 2 ^ 64 := x.toBits.toNat_lt
    have yBelow : y.toBits.toNat < 2 ^ 64 := y.toBits.toNat_lt
    rcases Nat.lt_or_ge x.toBits.toNat signWeight with hx | hx
    · rw [orderKey_of_lt hx, orderKey_of_lt (signs.1 hx)] at h
      simp only [signWeight] at *
      omega
    · have hy : signWeight ≤ y.toBits.toNat := Nat.not_lt.1 fun hy => Nat.not_lt.2 hx (signs.2 hy)
      rw [orderKey_of_ge hx, orderKey_of_ge hy] at h
      simp only [signWeight] at *
      omega
  obtain ⟨⟨xBits, xValid⟩⟩ := x
  obtain ⟨⟨yBits, yValid⟩⟩ := y
  obtain rfl : xBits = yBits := UInt64.toNat_inj.1 bits
  rfl

/-! ## Magnitudes

The bits of a number apart from its sign are its exponent field followed by its fraction.
-/

/-- The power of two of a magnitude. Fields zero and one stand for the same power. -/
def exponentOf (magnitude : Nat) : Int := (max (magnitude / leadingWeight) 1 : Nat) - 1075

/-- The significand of a magnitude, whose leading bit is not written. -/
def significandOf (magnitude : Nat) : Nat :=
  if magnitude / leadingWeight = 0 then magnitude % leadingWeight
  else leadingWeight + magnitude % leadingWeight

/-- Magnitudes are in the order of their powers of two, and at one power in that of their significands. -/
theorem magnitude_le {m n : Nat} (h : m ≤ n) :
    exponentOf m < exponentOf n ∨ exponentOf m = exponentOf n ∧ significandOf m ≤ significandOf n := by
  rw [exponentOf, exponentOf, significandOf, significandOf]
  split <;> split
  all_goals
    simp only [leadingWeight] at *
    omega

/-- The comparison of finite numbers of one sign. -/
theorem isLE_magnitudes {m n : Nat} (h : m ≤ n) :
    ((compare (exponentOf m) (exponentOf n)).then
      (compare (significandOf m) (significandOf n))).isLE := by
  rw [Ordering.isLE_then_iff_or, Int.compare_eq_lt, Int.compare_eq_eq, Nat.isLE_compare]
  obtain lower | ⟨same, smaller⟩ := magnitude_le h
  · exact .inl lower
  · exact .inr ⟨same, smaller⟩

/-- The exponent field of a magnitude. -/
theorem magnitude_div (bits : Nat) : bits % signWeight / leadingWeight = bits / leadingWeight % 2048 :=
  Nat.mod_mul_right_div_self bits leadingWeight 2048

/-- The fraction of a magnitude. -/
theorem magnitude_mod (bits : Nat) : bits % signWeight % leadingWeight = bits % leadingWeight :=
  Nat.mod_mod_of_dvd bits ⟨2048, rfl⟩

/-! ## Values -/

section

open Float.Model UnpackedFloat

/-- An unpacked number has a sign and the value of a magnitude. -/
inductive Unpacks (sign : Sign) (magnitude : Nat) : UnpackedFloat → Prop
  | zero (none : magnitude = 0) : Unpacks sign magnitude (.zero sign)
  | finite {significand : Nat} {exponent : Int} (positive : 0 < significand)
      (hsignificand : significand = significandOf magnitude) (hexponent : exponent = exponentOf magnitude) :
      Unpacks sign magnitude (.finite sign significand exponent positive)

/-- The sign of a number, by its bits. -/
def signOf (x : Float) : Sign := if x.toBits.toNat < signWeight then .positive else .negative

/-- The bit of the sign. -/
theorem unpackSign_eq (x : Float) :
    Sign.ofBitVec (@unpackSign Format.binary64 x.toModel.toBits.toBitVec) = signOf x := by
  have below : x.toBits.toNat < 2 ^ 64 := x.toBits.toNat_lt
  have bit : (@unpackSign Format.binary64 x.toModel.toBits.toBitVec).toNat =
      x.toBits.toNat / signWeight % 2 := by
    change (x.toBits.toNat >>> 63) % 2 = _
    rw [Nat.shiftRight_eq_div_pow]
    rfl
  have unset : @unpackSign Format.binary64 x.toModel.toBits.toBitVec = 0#1 ↔
      x.toBits.toNat < signWeight := by
    rw [← BitVec.toNat_inj, bit]
    simp only [signWeight, BitVec.toNat_ofNat]
    omega
  simp only [Sign.ofBitVec, signOf, unset]

/-- The bits of the exponent field. -/
theorem unpackExponent_toNat (x : Float) :
    (@unpackExponent Format.binary64 x.toModel.toBits.toBitVec).toNat =
      x.toBits.toNat % signWeight / leadingWeight := by
  rw [magnitude_div]
  simp only [unpackExponent, BitVec.toNat_cast, BitVec.extractLsb_toNat, Nat.shiftRight_eq_div_pow]
  rfl

/-- The bits of the fraction. -/
theorem unpackMantissa_toNat (x : Float) :
    (@unpackMantissa Format.binary64 x.toModel.toBits.toBitVec).toNat =
      x.toBits.toNat % signWeight % leadingWeight := by
  rw [magnitude_mod]
  simp only [unpackMantissa, BitVec.toNat_cast, BitVec.extractLsb_toNat, Nat.shiftRight_eq_div_pow,
    Nat.pow_zero, Nat.div_one]
  rfl

/-- A finite number has the sign and the magnitude of its bits. -/
theorem unpacks_of_isFinite {x : Float} (finite : x.isFinite) :
    Unpacks (signOf x) (x.toBits.toNat % signWeight) x.toModel.unpack := by
  have sign := unpackSign_eq x
  have exponent := unpackExponent_toNat x
  have fraction := unpackMantissa_toNat x
  have special : @unpackExponent Format.binary64 x.toModel.toBits.toBitVec ≠ -1#11 := by
    intro h
    apply Dyadic.field_ne_special finite
    rw [← magnitude_div, ← exponent, h]
    rfl
  change Unpacks _ _ (UnpackedFloat.unpack Format.binary64 x.toModel.toBits.toBitVec)
  generalize x.toBits.toNat % signWeight = m at *
  unfold UnpackedFloat.unpack
  rw [if_neg special, sign]
  by_cases subnormal : @unpackExponent Format.binary64 x.toModel.toBits.toBitVec = 0#11
  · have field : m / leadingWeight = 0 := by rw [← exponent, subnormal]; rfl
    by_cases nothing : @unpackMantissa Format.binary64 x.toModel.toBits.toBitVec = 0#52
    · have unset : m % leadingWeight = 0 := by rw [← fraction, nothing]; rfl
      rw [if_pos subnormal, dif_pos nothing]
      exact .zero (by rw [← Nat.div_add_mod m leadingWeight, field, unset, Nat.mul_zero])
    · rw [if_pos subnormal, dif_neg nothing]
      refine .finite _ ?_ ?_
      · rw [fraction, significandOf, if_pos field]
      · rw [exponent, exponentOf, field]
        rfl
  · have field : m / leadingWeight ≠ 0 := by
      rw [← exponent]
      exact fun h => subnormal (BitVec.eq_of_toNat_eq h)
    rw [if_neg subnormal]
    refine .finite _ ?_ ?_
    · have below : m % leadingWeight < 2 ^ 52 := Nat.mod_lt m (by decide)
      rw [significandOf, if_neg field, BitVec.toNat_append, fraction]
      exact (Nat.shiftLeft_add_eq_or_of_lt below 1).symm
    · rw [exponent, exponentOf, Nat.max_eq_left (Nat.pos_of_ne_zero field)]
      rfl

/-- Only zeros have no magnitude. -/
theorem Unpacks.eq_zero {sign : Sign} {u : UnpackedFloat} (h : Unpacks sign 0 u) : u = .zero sign := by
  cases h with
  | zero => rfl
  | finite positive significand =>
    subst significand
    exact absurd positive (by decide)

/-- Numbers with no sign bit are in the order of their magnitudes. -/
theorem Unpacks.le_of_positive {m n : Nat} {u v : UnpackedFloat} (hu : Unpacks .positive m u)
    (hv : Unpacks .positive n v) (h : m ≤ n) : u.le v := by
  cases hv with
  | zero none =>
    obtain rfl : m = 0 := Nat.le_zero.1 (none ▸ h)
    rw [hu.eq_zero]
    rfl
  | finite _ significand exponent =>
    subst significand exponent
    cases hu with
    | zero => rfl
    | finite _ significand exponent =>
      subst significand exponent
      exact isLE_magnitudes h

/-- Numbers with a sign bit are in the reverse order of their magnitudes. -/
theorem Unpacks.le_of_negative {m n : Nat} {u v : UnpackedFloat} (hu : Unpacks .negative m u)
    (hv : Unpacks .negative n v) (h : n ≤ m) : u.le v := by
  cases hu with
  | zero none =>
    obtain rfl : n = 0 := Nat.le_zero.1 (none ▸ h)
    rw [hv.eq_zero]
    rfl
  | finite _ significand exponent =>
    subst significand exponent
    cases hv with
    | zero => rfl
    | finite _ significand exponent =>
      subst significand exponent
      change (Ordering.swap _).isLE
      rw [Ordering.swap_then, Int.compare_swap, Nat.compare_swap]
      exact isLE_magnitudes h

/-- A number with a sign bit is at most every number without. -/
theorem Unpacks.le_of_signs {m n : Nat} {u v : UnpackedFloat} (hu : Unpacks .negative m u)
    (hv : Unpacks .positive n v) : u.le v := by
  cases hu <;> cases hv <;> rfl

/-- Finite numbers in the order of their keys are in the order of their values. -/
theorem le_of_orderKey_le {x y : Float} (hx : x.isFinite) (hy : y.isFinite)
    (h : orderKey x ≤ orderKey y) : x ≤ y := by
  have xUnpacks := unpacks_of_isFinite hx
  have yUnpacks := unpacks_of_isFinite hy
  apply decide_eq_true
  change UnpackedFloat.le x.toModel.unpack y.toModel.unpack
  rcases Nat.lt_or_ge x.toBits.toNat signWeight with xSign | xSign
  · have ySign : y.toBits.toNat < signWeight := by
      rw [← orderKey_nonneg] at xSign ⊢
      exact Int.le_trans xSign h
    rw [orderKey_of_lt xSign, orderKey_of_lt ySign, Int.ofNat_le] at h
    rw [signOf, if_pos xSign] at xUnpacks
    rw [signOf, if_pos ySign] at yUnpacks
    exact xUnpacks.le_of_positive yUnpacks h
  · rw [signOf, if_neg (Nat.not_lt.2 xSign)] at xUnpacks
    rcases Nat.lt_or_ge y.toBits.toNat signWeight with ySign | ySign
    · rw [signOf, if_pos ySign] at yUnpacks
      exact xUnpacks.le_of_signs yUnpacks
    · rw [orderKey_of_ge xSign, orderKey_of_ge ySign] at h
      rw [signOf, if_neg (Nat.not_lt.2 ySign)] at yUnpacks
      exact xUnpacks.le_of_negative yUnpacks (by omega)

end

end Workbook

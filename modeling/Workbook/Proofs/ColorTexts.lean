import Mathlib.Algebra.Group.Nat.Defs
import Mathlib.Tactic.SplitIfs
import Workbook.Proofs.TrimmedTexts
import Workbook.Schema.Styles

/-!
# Texts of colors

Which texts are colors, said without a reader: a mark and three, six or eight hexadecimal digits, with blanks
only around them. They stand for six digits, and these spell the bytes of the color in pairs. Every text of a
color is brought to one form, the mark and the six digits in upper case, so two texts have one form exactly if
they are texts of one color.
-/

namespace Workbook

open Text

/-! ## Hexadecimal digits -/

/-- The hexadecimal digits. -/
def hexDigits : List Char := "0123456789ABCDEFabcdef".toList

/-- The hexadecimal digits of the upper case. -/
def upperHexDigits : List Char := "0123456789ABCDEF".toList

/-- A character is the digit of a number below sixteen, in either case. -/
def HexDigit (c : Char) (v : Nat) : Prop := v < 16 ∧ (c = v.digitChar ∨ c = v.digitChar.toUpper)

/-- Two hexadecimal digits spell a byte. -/
def SpellsByte (high low : Char) (b : UInt8) : Prop :=
  ∃ v w, HexDigit high v ∧ HexDigit low w ∧ b.toNat = 16 * v + w

namespace Text

variable {c : Char} {v : Nat}

theorem toNat_hexDigitChar (h : v < 16) : v.digitChar.toNat = if v < 10 then 48 + v else 87 + v := by
  revert v
  decide

theorem toNat_toUpper_hexDigitChar (h : v < 16) :
    v.digitChar.toUpper.toNat = if v < 10 then 48 + v else 55 + v := by
  revert v
  decide

/-- The codes of hexadecimal digits. -/
theorem hexDigit_iff_code : HexDigit c v ↔
    (v < 10 ∧ c.toNat = 48 + v) ∨ (10 ≤ v ∧ v < 16 ∧ (c.toNat = 87 + v ∨ c.toNat = 55 + v)) := by
  rw [HexDigit, ← Char.toNat_inj, ← Char.toNat_inj]
  constructor
  · rintro ⟨hv, hc⟩
    rw [toNat_hexDigitChar hv, toNat_toUpper_hexDigitChar hv] at hc
    split at hc <;> omega
  · intro hc
    have hv : v < 16 := by omega
    rw [toNat_hexDigitChar hv, toNat_toUpper_hexDigitChar hv]
    split <;> omega

/-- A character is read as a digit exactly if it is one of that value. -/
theorem hexValue?_eq_some_iff : hexValue? c = some v ↔ HexDigit c v := by
  have between {lo hi : Char} : (decide (lo ≤ c) && decide (c ≤ hi)) = true ↔
      lo.toNat ≤ c.toNat ∧ c.toNat ≤ hi.toNat := by
    rw [Bool.and_eq_true, decide_eq_true_eq, decide_eq_true_eq]
    exact Iff.rfl
  have lower : (decide ('a' ≤ c) && decide (c ≤ 'f')) = true ↔ 97 ≤ c.toNat ∧ c.toNat ≤ 102 := between
  have upper : (decide ('A' ≤ c) && decide (c ≤ 'F')) = true ↔ 65 ≤ c.toNat ∧ c.toNat ≤ 70 := between
  rw [hexDigit_iff_code]
  simp only [hexValue?, isDigit_iff, lower, upper]
  split_ifs <;> simp only [Option.some.injEq, false_iff] <;> omega

/-- The hexadecimal digits are the characters with the value of a digit. -/
theorem mem_hexDigits_iff : c ∈ hexDigits ↔ ∃ v, HexDigit c v := by
  constructor
  · intro h
    have hsome : (hexDigits.all fun d => (hexValue? d).isSome) = true := by decide
    obtain ⟨v, hv⟩ := Option.isSome_iff_exists.1 (List.all_eq_true.1 hsome c h)
    exact ⟨v, hexValue?_eq_some_iff.1 hv⟩
  · rintro ⟨v, hv, rfl | rfl⟩ <;> revert v <;> decide

/-- A digit has one value. -/
theorem hexDigit_unique {w : Nat} (h : HexDigit c v) (h' : HexDigit c w) : v = w :=
  Option.some.inj ((hexValue?_eq_some_iff.2 h).symm.trans (hexValue?_eq_some_iff.2 h'))

/-- The upper case of a digit is the upper digit of its value. -/
theorem toUpper_of_hexDigit (h : HexDigit c v) : c.toUpper = upperHexDigit v := by
  obtain ⟨hv, rfl | rfl⟩ := h <;> revert v <;> decide

/-- The upper digit of a value has that value. -/
theorem hexDigit_upperHexDigit (h : v < 16) : HexDigit (upperHexDigit v) v := by
  rw [← hexValue?_eq_some_iff]
  revert v
  decide

/-- No digit is a blank. -/
theorem not_blank_of_mem_hexDigits (h : c ∈ hexDigits) : isBlank c = false := by
  have hblank : (hexDigits.all fun d => !isBlank d) = true := by decide
  have hc := List.all_eq_true.1 hblank c h
  rwa [Bool.not_eq_true'] at hc

/-- The upper case of a digit is an upper digit. -/
theorem toUpper_mem_upperHexDigits (h : c ∈ hexDigits) : c.toUpper ∈ upperHexDigits := by
  have hupper : (hexDigits.all fun d => upperHexDigits.contains d.toUpper) = true := by decide
  exact List.contains_iff_mem.1 (List.all_eq_true.1 hupper c h)

/-- Characters are read as a number of hexadecimal digits exactly if all of them are. -/
theorem isSome_readHex?_iff {ds : List Char} : (readHex? ds).isSome ↔ ∀ d ∈ ds, d ∈ hexDigits := by
  have folded (n : Nat) : (ds.foldlM (fun n c => (hexValue? c).map (16 * n + ·)) n).isSome ↔
      ∀ d ∈ ds, d ∈ hexDigits := by
    induction ds generalizing n with
    | nil => simp
    | cons d ds ih =>
      rw [List.foldlM_cons, List.forall_mem_cons, mem_hexDigits_iff]
      cases hd : hexValue? d with
      | none => simp [← hexValue?_eq_some_iff, hd]
      | some v => simp [← hexValue?_eq_some_iff, hd, ih]
  exact folded 0

/-- The number that digits are read as has no more digits than there are. -/
theorem readHex?_lt {ds : List Char} {n : Nat} (h : readHex? ds = some n) : n < 16 ^ ds.length := by
  have folded (m : Nat) (hm : ds.foldlM (fun n c => (hexValue? c).map (16 * n + ·)) m = some n) :
      n < (m + 1) * 16 ^ ds.length := by
    clear h
    induction ds generalizing m with
    | nil =>
      cases hm
      simp
    | cons d ds ih =>
      rw [List.foldlM_cons] at hm
      obtain ⟨next, hnext, hrest⟩ := Option.bind_eq_some_iff.1 hm
      obtain ⟨v, hv, rfl⟩ := Option.map_eq_some_iff.1 hnext
      have hdigit : v < 16 := (hexValue?_eq_some_iff.1 hv).1
      calc
        n < (16 * m + v + 1) * 16 ^ ds.length := ih _ hrest
        _ ≤ ((m + 1) * 16) * 16 ^ ds.length := Nat.mul_le_mul_right _ (by omega)
        _ = (m + 1) * 16 ^ (d :: ds).length := by rw [Nat.mul_assoc, ← Nat.pow_succ', List.length_cons]
  have hzero := folded 0 h
  rwa [Nat.zero_add, Nat.one_mul] at hzero

end Text

/-- The characters that spell a byte are digits. -/
theorem SpellsByte.mem_hexDigits {high low : Char} {b : UInt8} (h : SpellsByte high low b) :
    high ∈ hexDigits ∧ low ∈ hexDigits := by
  obtain ⟨v, w, hv, hw, -⟩ := h
  exact ⟨mem_hexDigits_iff.2 ⟨v, hv⟩, mem_hexDigits_iff.2 ⟨w, hw⟩⟩

/-! ## Written forms -/

namespace Color

/-- The six digits that a run of digits stands for: each of three digits stands for two, and of eight digits
the first two do not count. -/
inductive StandsFor : List Char → List Char → Prop
  | short (r g b : Char) : StandsFor [r, g, b] [r, r, g, g, b, b]
  | full (r r' g g' b b' : Char) : StandsFor [r, r', g, g', b, b'] [r, r', g, g', b, b']
  | withOpacity (a a' r r' g g' b b' : Char) : StandsFor [a, a', r, r', g, g', b, b'] [r, r', g, g', b, b']

/-- Six digits spell the bytes of a color. -/
inductive SpelledBy (c : Color) : List Char → Prop
  | pairs {r r' g g' b b' : Char} (red : SpellsByte r r' c.red) (green : SpellsByte g g' c.green)
    (blue : SpellsByte b b' c.blue) : SpelledBy c [r, r', g, g', b, b']

/-- A text is one of a color. -/
def WrittenIn (c : Color) (s : String) : Prop :=
  ∃ digits six, Trims s.toList ('#' :: digits) ∧ (∀ d ∈ digits, d ∈ hexDigits) ∧
    StandsFor digits six ∧ c.SpelledBy six

variable {c : Color} {digits six : List Char} {s t : String}

/-- Digits are brought to six exactly as they stand for six. -/
theorem sixDigits?_eq_some_iff : sixDigits? digits = some six ↔ StandsFor digits six := by
  constructor
  · intro h
    unfold sixDigits? at h
    split at h
    · obtain rfl := Option.some.inj h
      exact .short _ _ _
    · obtain rfl := Option.some.inj h
      exact .full _ _ _ _ _ _
    · obtain rfl := Option.some.inj h
      exact .withOpacity _ _ _ _ _ _ _ _
    · cases h
  · intro h
    cases h <;> rfl

/-- Two digits spell the byte that has their number. -/
theorem spellsByte_iff {high low : Char} {v w : Nat} {b : UInt8} (hv : HexDigit high v) (hw : HexDigit low w) :
    SpellsByte high low b ↔ b.toNat = 16 * v + w := by
  constructor
  · rintro ⟨v', w', hv', hw', hb⟩
    rw [hb, hexDigit_unique hv hv', hexDigit_unique hw hw']
  · intro hb
    exact ⟨v, w, hv, hw, hb⟩

/-- A color is found from a number exactly if its bytes are the low three bytes of the number. -/
theorem ofNat_eq_iff {n : Nat} : ofNat n = c ↔
    c.red.toNat = n / 65536 % 256 ∧ c.green.toNat = n / 256 % 256 ∧ c.blue.toNat = n % 256 := by
  obtain ⟨red, green, blue⟩ := c
  rw [ofNat, mk.injEq, ← UInt8.toNat_inj, ← UInt8.toNat_inj, ← UInt8.toNat_inj, UInt8.toNat_ofNat',
    UInt8.toNat_ofNat', UInt8.toNat_ofNat']
  constructor
  · rintro ⟨hr, hg, hb⟩
    exact ⟨hr.symm, hg.symm, hb.symm⟩
  · rintro ⟨hr, hg, hb⟩
    exact ⟨hr.symm, hg.symm, hb.symm⟩

/-- Six digits are read as the color whose bytes they spell. -/
theorem readHex?_eq_some_iff {r r' g g' b b' : Char} (hex : ∀ d ∈ [r, r', g, g', b, b'], d ∈ hexDigits) :
    (∃ n, readHex? [r, r', g, g', b, b'] = some n ∧ ofNat n = c) ↔ c.SpelledBy [r, r', g, g', b, b'] := by
  simp only [List.forall_mem_cons, mem_hexDigits_iff] at hex
  obtain ⟨⟨v₁, h₁⟩, ⟨v₂, h₂⟩, ⟨v₃, h₃⟩, ⟨v₄, h₄⟩, ⟨v₅, h₅⟩, ⟨v₆, h₆⟩, -⟩ := hex
  have hread : readHex? [r, r', g, g', b, b'] =
      some (16 * (16 * (16 * (16 * (16 * (16 * 0 + v₁) + v₂) + v₃) + v₄) + v₅) + v₆) := by
    simp [readHex?, hexValue?_eq_some_iff.2 h₁, hexValue?_eq_some_iff.2 h₂, hexValue?_eq_some_iff.2 h₃,
      hexValue?_eq_some_iff.2 h₄, hexValue?_eq_some_iff.2 h₅, hexValue?_eq_some_iff.2 h₆]
  have hspelled : c.SpelledBy [r, r', g, g', b, b'] ↔ c.red.toNat = 16 * v₁ + v₂ ∧
      c.green.toNat = 16 * v₃ + v₄ ∧ c.blue.toNat = 16 * v₅ + v₆ := by
    rw [← spellsByte_iff h₁ h₂, ← spellsByte_iff h₃ h₄, ← spellsByte_iff h₅ h₆]
    constructor
    · rintro ⟨red, green, blue⟩
      exact ⟨red, green, blue⟩
    · rintro ⟨red, green, blue⟩
      exact ⟨red, green, blue⟩
  have small := And.intro h₁.1 (And.intro h₂.1 (And.intro h₃.1 (And.intro h₄.1 (And.intro h₅.1 h₆.1))))
  rw [hspelled]
  constructor
  · rintro ⟨n, hn, hc⟩
    obtain rfl := Option.some.inj (hn.symm.trans hread)
    have hbytes := ofNat_eq_iff.1 hc
    omega
  · intro hbytes
    refine ⟨_, hread, ofNat_eq_iff.2 ?_⟩
    omega

/-- The digits that are stood for are digits of the run. -/
theorem StandsFor.subset (h : StandsFor digits six) : six ⊆ digits := by
  cases h <;> simp

/-- Digits stand for digits. -/
theorem StandsFor.mem_hexDigits (h : StandsFor digits six) (hex : ∀ d ∈ digits, d ∈ hexDigits) :
    ∀ d ∈ six, d ∈ hexDigits := fun d hd => hex d (h.subset hd)

/-- Three, six or eight digits stand for six. -/
theorem StandsFor.length_eq (h : StandsFor digits six) :
    (digits.length = 3 ∨ digits.length = 6 ∨ digits.length = 8) ∧ six.length = 6 := by
  cases h <;> simp

/-- Any three, six or eight digits stand for some. -/
theorem exists_standsFor (h : digits.length = 3 ∨ digits.length = 6 ∨ digits.length = 8) :
    ∃ six, StandsFor digits six := by
  obtain h | h | h := h
  · match digits, h with
    | [r, g, b], _ => exact ⟨_, .short r g b⟩
  · match digits, h with
    | [r, r', g, g', b, b'], _ => exact ⟨_, .full r r' g g' b b'⟩
  · match digits, h with
    | [a, a', r, r', g, g', b, b'], _ => exact ⟨_, .withOpacity a a' r r' g g' b b'⟩

/-- Six digits are read as a color exactly if they spell its bytes. -/
theorem StandsFor.read_iff (h : StandsFor digits six) (hex : ∀ d ∈ digits, d ∈ hexDigits) :
    (∃ n, readHex? six = some n ∧ ofNat n = c) ↔ c.SpelledBy six := by
  have hsix := h.mem_hexDigits hex
  cases h <;> exact readHex?_eq_some_iff hsix

/-- A text is read as a color exactly if it is one of that color. -/
theorem ofText?_eq_some_iff : ofText? s = some c ↔ c.WrittenIn s := by
  simp only [WrittenIn, trims_iff, ofText?, ofChars?]
  constructor
  · intro h
    split at h
    · rename_i digits hinside
      simp only [Option.bind_eq_bind, Option.bind_eq_some_iff, Option.pure_def, Option.some.injEq] at h
      obtain ⟨six, hsix, m, hm, n, hn, hc⟩ := h
      have hex := isSome_readHex?_iff.1 (Option.isSome_of_eq_some hm)
      have stands := sixDigits?_eq_some_iff.1 hsix
      exact ⟨digits, six, hinside.symm, hex, stands, (stands.read_iff hex).1 ⟨n, hn, hc⟩⟩
    · cases h
  · rintro ⟨digits, six, hinside, hex, stands, spelled⟩
    obtain ⟨m, hm⟩ := Option.isSome_iff_exists.1 (isSome_readHex?_iff.2 hex)
    obtain ⟨n, hn, hc⟩ := (stands.read_iff hex).2 spelled
    rw [← hinside]
    simp only [sixDigits?_eq_some_iff.2 stands, hm, hn, hc, Option.bind_eq_bind, Option.bind_some,
      Option.pure_def]

/-- A mark and hexadecimal digits that stand for six are a text of some color. -/
theorem exists_writtenIn (inside : Trims s.toList ('#' :: digits)) (hex : ∀ d ∈ digits, d ∈ hexDigits)
    (stands : StandsFor digits six) : ∃ c : Color, c.SpelledBy six ∧ c.WrittenIn s := by
  obtain ⟨n, hn⟩ := Option.isSome_iff_exists.1 (isSome_readHex?_iff.2 (stands.mem_hexDigits hex))
  have spelled : (ofNat n).SpelledBy six := (stands.read_iff hex).1 ⟨n, hn, rfl⟩
  exact ⟨ofNat n, spelled, digits, six, inside, hex, stands, spelled⟩

/-! ## The one form -/

/-- The upper digits of a byte are those that spell it, in upper case. -/
theorem upperHexByte_of_spells {high low : Char} {b : UInt8} (h : SpellsByte high low b) :
    upperHexByte b = [high.toUpper, low.toUpper] := by
  obtain ⟨v, w, hv, hw, hb⟩ := h
  have hw16 : w < 16 := hw.1
  have hhigh : b.toNat / 16 = v := by omega
  have hlow : b.toNat % 16 = w := by omega
  rw [upperHexByte, hhigh, hlow, toUpper_of_hexDigit hv, toUpper_of_hexDigit hw]

/-- The written form of a color is that of its digits in upper case. -/
theorem chars_of_spelledBy (h : c.SpelledBy six) : c.chars = '#' :: six.map Char.toUpper := by
  obtain ⟨red, green, blue⟩ := h
  rw [chars, upperHexByte_of_spells red, upperHexByte_of_spells green, upperHexByte_of_spells blue]
  rfl

/-- A text is brought to the mark and the six digits that it stands for in upper case. -/
theorem normalize?_eq_some_iff : normalize? s = some t ↔ ∃ digits six, Trims s.toList ('#' :: digits) ∧
    (∀ d ∈ digits, d ∈ hexDigits) ∧ StandsFor digits six ∧ t = String.ofList ('#' :: six.map Char.toUpper) := by
  simp only [normalize?, Option.map_eq_some_iff, ofText?_eq_some_iff]
  constructor
  · rintro ⟨c, ⟨digits, six, inside, hex, stands, spelled⟩, rfl⟩
    exact ⟨digits, six, inside, hex, stands, by rw [text, chars_of_spelledBy spelled]⟩
  · rintro ⟨digits, six, inside, hex, stands, rfl⟩
    obtain ⟨c, spelled, written⟩ := exists_writtenIn inside hex stands
    exact ⟨c, written, by rw [text, chars_of_spelledBy spelled]⟩

/-- The upper digits of a byte spell it. -/
theorem spellsByte_upperHexByte (b : UInt8) :
    SpellsByte (upperHexDigit (b.toNat / 16)) (upperHexDigit (b.toNat % 16)) b := by
  have hb : b.toNat < 256 := b.toNat_lt
  have hhigh : b.toNat / 16 < 16 := by omega
  have hlow : b.toNat % 16 < 16 := Nat.mod_lt _ (by decide)
  exact ⟨_, _, hexDigit_upperHexDigit hhigh, hexDigit_upperHexDigit hlow, by omega⟩

/-- What spells a color is digits. -/
theorem SpelledBy.mem_hexDigits (h : c.SpelledBy six) : ∀ d ∈ six, d ∈ hexDigits := by
  obtain ⟨red, green, blue⟩ := h
  have hred := red.mem_hexDigits
  have hgreen := green.mem_hexDigits
  have hblue := blue.mem_hexDigits
  simp [hred, hgreen, hblue]

/-- The digits of the written form spell the color. -/
theorem spelledBy_upperHexBytes (c : Color) :
    c.SpelledBy (upperHexByte c.red ++ upperHexByte c.green ++ upperHexByte c.blue) :=
  .pairs (spellsByte_upperHexByte _) (spellsByte_upperHexByte _) (spellsByte_upperHexByte _)

/-- The written form of a color is one of its texts. -/
theorem writtenIn_text (c : Color) : c.WrittenIn c.text := by
  have spelled := c.spelledBy_upperHexBytes
  have hblank : ∀ d ∈ c.chars, isBlank d = false := by
    intro d hd
    obtain rfl | hd := List.mem_cons.1 hd
    · decide
    · exact not_blank_of_mem_hexDigits (spelled.mem_hexDigits d hd)
  have inside : Trims c.text.toList c.chars := by
    rw [text, String.toList_ofList, trims_iff, trim_of_not_blank hblank]
  exact ⟨_, _, inside, spelled.mem_hexDigits, .full _ _ _ _ _ _, spelled⟩

/-- The written form of a color reads as the color. -/
theorem ofText?_text (c : Color) : ofText? c.text = some c := ofText?_eq_some_iff.2 c.writtenIn_text

/-- Two colors have one text exactly if they are the same. -/
theorem text_inj {c' : Color} : c.text = c'.text ↔ c = c' := by
  constructor
  · intro h
    have hread := ofText?_text c
    rw [h, ofText?_text] at hread
    exact (Option.some.inj hread).symm
  · rintro rfl
    rfl

/-- The lenient reading of a mark and six digits is the color whose bytes they spell. -/
theorem lenient_of_spelledBy (hs : s.toList = '#' :: six) (h : c.SpelledBy six) : lenient s = c := by
  have hhex := h.mem_hexDigits
  obtain ⟨n, hread, hn⟩ : ∃ n, readHex? six = some n ∧ ofNat n = c := by
    cases h with
    | pairs red green blue => exact (readHex?_eq_some_iff hhex).2 (.pairs red green blue)
  have hlength : six.length = 6 := by
    cases h
    rfl
  have hsmall : n < UInt32.size := by
    have hlt := readHex?_lt hread
    rw [hlength] at hlt
    exact Nat.lt_trans hlt (by decide)
  -- the digits are neither marks nor signs
  obtain ⟨d, rest, rfl⟩ := List.exists_cons_of_ne_nil (List.ne_nil_of_length_pos (by omega : 0 < six.length))
  have hplain : (hexDigits.all fun d => d != '#' && d != '+') = true := by decide
  have hd := List.all_eq_true.1 hplain d (hhex d List.mem_cons_self)
  rw [Bool.and_eq_true, bne_iff_ne, bne_iff_ne] at hd
  have hdrop : ('#' :: d :: rest).dropWhile (· == '#') = d :: rest := by simp [hd.1]
  simp [lenient, hs, hdrop, hd.2, hread, hsmall, hn]

/-- The lenient reading of the written form is the color. -/
theorem lenient_text (c : Color) : lenient c.text = c :=
  lenient_of_spelledBy String.toList_ofList c.spelledBy_upperHexBytes

/-- Colors are decoded from their texts only. -/
theorem decoder_eq_ok_iff {h : Schema.Holding} {v : Json} :
    decoder h v = .ok c ↔ ∃ s, v = .text s ∧ c.WrittenIn s := by
  constructor
  · intro hc
    cases v with
    | text s =>
      simp only [decoder, Schema.text, bind, Except.bind] at hc
      split at hc
      · rename_i hs
        cases hc
        exact ⟨s, rfl, ofText?_eq_some_iff.1 hs⟩
      · cases hc
    | _ => cases hc
  · rintro ⟨s, rfl, hs⟩
    simp only [decoder, Schema.text, bind, Except.bind, ofText?_eq_some_iff.2 hs]

/-- Exactly the texts of a mark and three, six or eight hexadecimal digits, apart from blanks around them, are
brought to one form, and this form is the mark and six digits in upper case. Two texts are brought to one form
exactly if they are texts of one color. A text is read, and decoded, as the color with the bytes that it
spells, every color is read back from its own form, also by the reading that takes every text for a color, and
colors differ exactly if their forms do. -/
theorem texts_are_canonical :
    (∀ s, (∃ t, normalize? s = some t) ↔ ∃ digits, Trims s.toList ('#' :: digits) ∧
      (digits.length = 3 ∨ digits.length = 6 ∨ digits.length = 8) ∧ ∀ d ∈ digits, d ∈ hexDigits) ∧
    (∀ s t, normalize? s = some t →
      ∃ six, t.toList = '#' :: six ∧ six.length = 6 ∧ ∀ d ∈ six, d ∈ upperHexDigits) ∧
    (∀ s s', (∃ t, normalize? s = some t ∧ normalize? s' = some t) ↔
      ∃ c : Color, c.WrittenIn s ∧ c.WrittenIn s') ∧
    (∀ s red green blue, ofText? s = some ⟨red, green, blue⟩ ↔ WrittenIn ⟨red, green, blue⟩ s) ∧
    (∀ h v c, decoder h v = .ok c ↔ ∃ s, v = .text s ∧ c.WrittenIn s) ∧
    (∀ c : Color, ofText? c.text = some c ∧ normalize? c.text = some c.text ∧ lenient c.text = c) ∧
    ∀ c c' : Color, c.text = c'.text ↔ c = c' := by
  refine ⟨fun s => ⟨?_, ?_⟩, fun s t h => ?_, fun s s' => ⟨?_, ?_⟩, fun _ _ _ _ => ofText?_eq_some_iff,
    fun _ _ _ => decoder_eq_ok_iff, fun c => ⟨ofText?_text c, ?_, lenient_text c⟩, fun _ _ => text_inj⟩
  · rintro ⟨t, ht⟩
    obtain ⟨digits, six, inside, hex, stands, -⟩ := normalize?_eq_some_iff.1 ht
    exact ⟨digits, inside, stands.length_eq.1, hex⟩
  · rintro ⟨digits, inside, hlength, hex⟩
    obtain ⟨six, stands⟩ := exists_standsFor hlength
    exact ⟨_, normalize?_eq_some_iff.2 ⟨digits, six, inside, hex, stands, rfl⟩⟩
  · obtain ⟨digits, six, -, hex, stands, rfl⟩ := normalize?_eq_some_iff.1 h
    refine ⟨six.map Char.toUpper, String.toList_ofList, ?_, ?_⟩
    · rw [List.length_map, stands.length_eq.2]
    · intro d hd
      obtain ⟨e, he, rfl⟩ := List.mem_map.1 hd
      exact toUpper_mem_upperHexDigits (stands.mem_hexDigits hex e he)
  · rintro ⟨t, hs, hs'⟩
    obtain ⟨c, hc, rfl⟩ := Option.map_eq_some_iff.1 hs
    obtain ⟨c', hc', htext⟩ := Option.map_eq_some_iff.1 hs'
    obtain rfl := text_inj.1 htext
    exact ⟨c', ofText?_eq_some_iff.1 hc, ofText?_eq_some_iff.1 hc'⟩
  · rintro ⟨c, hs, hs'⟩
    refine ⟨c.text, ?_, ?_⟩
    · rw [normalize?, ofText?_eq_some_iff.2 hs, Option.map_some]
    · rw [normalize?, ofText?_eq_some_iff.2 hs', Option.map_some]
  · rw [normalize?, ofText?_text, Option.map_some]

example : normalize? " #80fF9900\n" = some "#FF9900" := by decide

end Color

end Workbook

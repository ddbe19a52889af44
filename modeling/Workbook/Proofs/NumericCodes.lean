import Workbook.Format.Numeric

/-!
# What numeric format codes mean

A numeric format code is a currency symbol, digits before the point, the point with digits after it, and a
percent sign or a currency symbol, each where the format declares it. Commas between the digits are counted
from the right. The symbol is written in quotes, so a reader of format codes shows it as it is, whatever
characters it has, and takes nothing but the digits, the point, the commas and the percent sign as codes.
-/

namespace Workbook

namespace NumericFormat

/-! ## Reading format codes -/

/-- A character of a format code: one that is shown as it is, or one with a meaning. -/
inductive Mark where
  | shown (c : Char)
  | code (c : Char)
deriving DecidableEq, Repr

/-- Read a format code in or outside a quoted section. What stands in a section is shown as it is, and so is
the character after a backslash. A section has an end, and a backslash has a character. -/
def readMarks? : Bool → List Char → Option (List Mark)
  | false, [] => some []
  | true, [] => none
  | true, c :: cs =>
    if c = '"' then readMarks? false cs else (readMarks? true cs).map (.shown c :: ·)
  | false, '\\' :: c :: cs => (readMarks? false cs).map (.shown c :: ·)
  | false, ['\\'] => none
  | false, c :: cs =>
    if c = '"' then readMarks? true cs else (readMarks? false cs).map (.code c :: ·)

/-- A character that neither begins a section nor escapes the next one is a code. -/
theorem readMarks?_code {c : Char} (quote : c ≠ '"') (escape : c ≠ '\\') (cs : List Char) :
    readMarks? false (c :: cs) = (readMarks? false cs).map (.code c :: ·) := by
  rw [readMarks?, if_neg quote]
  · rintro d ds rfl
    exact absurd rfl escape
  · rintro rfl
    exact absurd rfl escape

/-- Some characters are read as some marks, whatever comes after them. -/
def ReadAs (cs : List Char) (marks : List Mark) : Prop :=
  ∀ rest, readMarks? false (cs ++ rest) = (readMarks? false rest).map (marks ++ ·)

namespace ReadAs

variable {cs ds : List Char} {marks more : List Mark}

/-- What is read as marks is read so side by side. -/
theorem append (h : ReadAs cs marks) (h' : ReadAs ds more) : ReadAs (cs ++ ds) (marks ++ more) := by
  intro rest
  rw [List.append_assoc, h, h', Option.map_map]
  congr 1
  funext after
  exact (List.append_assoc marks more after).symm

/-- They are read so by themselves. -/
theorem readMarks?_eq (h : ReadAs cs marks) : readMarks? false cs = some marks := by
  have hcs := h []
  rw [List.append_nil] at hcs
  rw [hcs]
  exact congrArg some (List.append_nil marks)

/-- Characters that are neither quotes nor backslashes are read as codes. -/
theorem codes (plain : ∀ c ∈ cs, c ≠ '"' ∧ c ≠ '\\') : ReadAs cs (cs.map .code) := by
  intro rest
  induction cs with
  | nil => simp
  | cons c cs ih =>
    obtain ⟨⟨quote, escape⟩, hcs⟩ := List.forall_mem_cons.1 plain
    rw [List.cons_append, readMarks?_code quote escape, ih hcs, Option.map_map]
    rfl

end ReadAs

/-- The rest of a literal shows the rest of its text, wherever in the literal it begins. -/
theorem readMarks?_literalRest (quoted : Bool) (text rest : List Char) :
    readMarks? quoted (literalRest quoted text ++ rest) =
      (readMarks? false rest).map (text.map .shown ++ ·) := by
  induction text generalizing quoted with
  | nil => cases quoted <;> simp [literalRest, readMarks?]
  | cons c cs ih =>
    by_cases hc : c = '"'
    · -- a quote in the text stands outside of sections
      subst hc
      have hnext := congrArg (Option.map (Mark.shown '"' :: ·)) (ih false)
      rw [Option.map_map] at hnext
      cases quoted with
      | false => exact hnext
      | true => exact hnext
    · have hnext := congrArg (Option.map (Mark.shown c :: ·)) (ih true)
      rw [Option.map_map] at hnext
      have hsection : readMarks? true (c :: (literalRest true cs ++ rest)) =
          (readMarks? true (literalRest true cs ++ rest)).map (.shown c :: ·) := by
        rw [readMarks?, if_neg hc]
      cases quoted with
      | false =>
        have hopen : literalRest false (c :: cs) = '"' :: c :: literalRest true cs := by
          simp [literalRest]
        rw [hopen]
        exact hsection.trans hnext
      | true =>
        have hinside : literalRest true (c :: cs) = c :: literalRest true cs := by
          simp [literalRest]
        rw [hinside]
        exact hsection.trans hnext

/-- A literal shows its text. -/
theorem ReadAs.literal (text : List Char) : ReadAs (literal text) (text.map .shown) := by
  intro rest
  cases text with
  | nil => simp [NumericFormat.literal, readMarks?]
  | cons c cs => exact readMarks?_literalRest false (c :: cs) rest

/-! ## Commas between digits -/

/-- Without its commas. -/
def bare (part : List Char) : List Char := part.filter (· ≠ ',')

/-- A comma stands between some digits and others. -/
def CommaAt (before after part : List Char) : Prop :=
  ∃ left right, part = left ++ ',' :: right ∧ bare left = before ∧ bare right = after

/-- Digits with commas that separate thousands: at every place inside the digits that has a multiple of three
digits to its right, and nowhere else. -/
structure Separated (digits part : List Char) : Prop where
  bare_eq : bare part = digits
  commas : ∀ before after, before ++ after = digits →
    (CommaAt before after part ↔ before ≠ [] ∧ after ≠ [] ∧ 3 ∣ after.length)
  first : ∀ rest, part ≠ ',' :: rest
  last : ∀ rest, part ≠ rest ++ [',']
  single : ∀ left right, part ≠ left ++ ',' :: ',' :: right

/-- The comma in front of some digits that follow others, if there is one. -/
def comma (after : List Char) : List Char := if after ≠ [] ∧ 3 ∣ after.length then [','] else []

/-- The first of some digits stands before the comma of the others. -/
theorem grouped_cons (c : Char) (after : List Char) :
    grouped (c :: after) = c :: (comma after ++ grouped after) := by
  cases after with
  | nil => rfl
  | cons d rest =>
    rw [grouped, comma, List.length_cons]
    by_cases h : (rest.length + 1) % 3 = 0
    · rw [if_pos h, if_pos ⟨List.cons_ne_nil d rest, Nat.dvd_of_mod_eq_zero h⟩]
      rfl
    · rw [if_neg h, if_neg fun hcomma => h (Nat.mod_eq_zero_of_dvd hcomma.2)]
      rfl

section Grouped

variable {digits before after left right : List Char}

theorem bare_append (left right : List Char) : bare (left ++ right) = bare left ++ bare right :=
  List.filter_append left right

theorem bare_cons {c : Char} (hc : c ≠ ',') (part : List Char) : bare (c :: part) = c :: bare part :=
  List.filter_cons_of_pos (by simpa using hc)

theorem bare_comma (after : List Char) : bare (comma after) = [] := by
  unfold comma
  split <;> rfl

/-- Without its commas grouped digits are the digits. -/
theorem bare_grouped (h : ∀ c ∈ digits, c ≠ ',') : bare (grouped digits) = digits := by
  induction digits with
  | nil => rfl
  | cons c after ih =>
    obtain ⟨hc, hafter⟩ := List.forall_mem_cons.1 h
    rw [grouped_cons, bare_cons hc, bare_append, bare_comma, ih hafter, List.nil_append]

/-- What stands behind some digits is grouped as it is by itself, behind its comma. -/
theorem grouped_append (h : ∀ c ∈ before, c ≠ ',') (some : before ≠ []) (after : List Char) :
    ∃ left, grouped (before ++ after) = left ++ (comma after ++ grouped after) ∧ bare left = before := by
  induction before with
  | nil => exact absurd rfl some
  | cons c rest ih =>
    obtain ⟨hc, hrest⟩ := List.forall_mem_cons.1 h
    rw [List.cons_append, grouped_cons]
    cases rest with
    | nil => exact ⟨[c], rfl, bare_cons hc []⟩
    | cons d ds =>
      obtain ⟨left, heq, hbare⟩ := ih hrest (List.cons_ne_nil d ds)
      refine ⟨c :: (comma (d :: ds ++ after) ++ left), ?_, ?_⟩
      · rw [heq]
        exact congrArg (List.cons c) (List.append_assoc _ _ _).symm
      · rw [bare_cons hc, bare_append, bare_comma, hbare, List.nil_append]

/-- Behind a comma a multiple of three digits is grouped, and not none. -/
theorem exists_after_comma (h : ∀ c ∈ digits, c ≠ ',') (heq : grouped digits = left ++ ',' :: right) :
    left ≠ [] ∧ ∃ after, after <:+ digits ∧ right = grouped after ∧ after ≠ [] ∧ 3 ∣ after.length := by
  induction digits generalizing left with
  | nil => exact absurd heq (by simp [grouped])
  | cons c after ih =>
    obtain ⟨hc, hafter⟩ := List.forall_mem_cons.1 h
    rw [grouped_cons] at heq
    cases left with
    | nil => exact absurd (List.cons.inj heq).1 hc
    | cons d left =>
      refine ⟨List.cons_ne_nil d left, ?_⟩
      have htail : comma after ++ grouped after = left ++ ',' :: right := (List.cons.inj heq).2
      -- the comma is the one in front of the digits that follow, or a later one
      have hlater {left : List Char} (hlater : grouped after = left ++ ',' :: right) :
          ∃ later, later <:+ c :: after ∧ right = grouped later ∧ later ≠ [] ∧ 3 ∣ later.length := by
        obtain ⟨-, later, hsuffix, hright⟩ := ih hafter hlater
        exact ⟨later, hsuffix.trans (List.suffix_cons c after), hright⟩
      by_cases hcomma : after ≠ [] ∧ 3 ∣ after.length
      · rw [comma, if_pos hcomma] at htail
        cases left with
        | nil => exact ⟨after, List.suffix_cons c after, (List.cons.inj htail).2.symm, hcomma⟩
        | cons _ left => exact hlater (List.cons.inj htail).2
      · rw [comma, if_neg hcomma] at htail
        exact hlater htail

/-- Grouped digits do not begin with a comma. -/
theorem grouped_ne_comma (h : ∀ c ∈ digits, c ≠ ',') (rest : List Char) :
    grouped digits ≠ ',' :: rest := by
  intro heq
  have hfront : grouped digits = [] ++ ',' :: rest := heq
  exact (exists_after_comma h hfront).1 rfl

/-- Some digits are grouped to some characters. -/
theorem grouped_ne_nil (h : digits ≠ []) : grouped digits ≠ [] := by
  cases digits with
  | nil => exact absurd rfl h
  | cons c after =>
    rw [grouped_cons]
    exact List.cons_ne_nil _ _

/-- Grouped digits are separated. -/
theorem separated_grouped (h : ∀ c ∈ digits, c ≠ ',') : Separated digits (grouped digits) where
  bare_eq := bare_grouped h
  commas before after hdigits := by
    subst hdigits
    obtain ⟨hbefore, hafter⟩ := List.forall_mem_append.1 h
    constructor
    · rintro ⟨left, right, heq, rfl, hright⟩
      obtain ⟨hleft, later, hsuffix, rfl, hlater⟩ := exists_after_comma h heq
      rw [bare_grouped fun c hc => h c (hsuffix.subset hc)] at hright
      subst hright
      refine ⟨fun hnone => ?_, hlater⟩
      -- a comma with no digit before it would come first
      cases left with
      | nil => exact hleft rfl
      | cons c left =>
        by_cases hc : c = ','
        · subst hc
          exact grouped_ne_comma h _ heq
        · rw [bare_cons hc] at hnone
          cases hnone
    · rintro ⟨hsome, hcomma⟩
      obtain ⟨left, heq, hleft⟩ := grouped_append hbefore hsome after
      rw [comma, if_pos hcomma] at heq
      exact ⟨left, grouped after, heq, hleft, bare_grouped hafter⟩
  first := grouped_ne_comma h
  last rest heq := by
    obtain ⟨-, after, -, hnil, hafter, -⟩ := exists_after_comma h heq
    exact grouped_ne_nil hafter hnil.symm
  single left right heq := by
    obtain ⟨-, after, hsuffix, hright, -⟩ := exists_after_comma h heq
    exact grouped_ne_comma (fun c hc => h c (hsuffix.subset hc)) right hright.symm

end Grouped

/-! ## The parts of a code -/

/-- The digits before the point that a format declares: as many fixed digits as it says, or those of every
kind, or one fixed digit if it says nothing. -/
def wholeDigits (f : NumericFormat) : List Char :=
  match f.integer with
  | none => ['0']
  | some (.fixed n) => List.replicate n.toNat '0'
  | some (.counts c) =>
    List.replicate c.flex.toNat '#' ++ List.replicate c.align.toNat '?' ++ List.replicate c.fixed.toNat '0'

/-- What stands before the point. With commas there are at least four digits. -/
def IsWhole (f : NumericFormat) (part : List Char) : Prop :=
  if f.commas then
    Separated (List.replicate (4 - f.wholeDigits.length) '#' ++ f.wholeDigits) part
  else part = f.wholeDigits

/-- The digits after the point that a format declares, none if it says nothing. -/
def fractionDigits (f : NumericFormat) : List Char :=
  match f.decimal with
  | none => []
  | some (.fixed n) => List.replicate n.toNat '0'
  | some (.counts c) =>
    List.replicate c.fixed.toNat '0' ++ List.replicate c.align.toNat '?' ++ List.replicate c.flex.toNat '#'

/-- The point and what stands after it: nothing if no digits are declared. -/
def IsFraction (f : NumericFormat) (part : List Char) : Prop :=
  if f.fractionDigits = [] then part = [] else part = '.' :: f.fractionDigits

/-- The currency symbol that a format declares. -/
def symbolText (f : NumericFormat) : List Char :=
  match f.symbol with
  | none => ['$']
  | some text => text.toList

/-- The digits with what the format puts around them. -/
def around {α : Type} (f : NumericFormat) (symbol digits : List α) (percent : α) : List α :=
  match f.kind, f.position with
  | .number, _ => digits
  | .percent, _ => digits ++ [percent]
  | .currency, .leading => symbol ++ digits
  | .currency, .trailing => digits ++ symbol

variable (f : NumericFormat)

/-- The digits that the code is made of are the declared ones. -/
theorem wholeDigits_eq :
    run '#' ((f.integer.map DigitSpec.toCounts).getD { fixed := 1 }).flex ++
      run '?' ((f.integer.map DigitSpec.toCounts).getD { fixed := 1 }).align ++
      run '0' ((f.integer.map DigitSpec.toCounts).getD { fixed := 1 }).fixed = f.wholeDigits := by
  unfold wholeDigits
  cases f.integer with
  | none => rfl
  | some spec =>
    cases spec with
    | fixed n => rfl
    | counts c => rfl

/-- The digits behind the point are the declared ones. -/
theorem fractionDigits_eq :
    run '0' ((f.decimal.map DigitSpec.toCounts).getD {}).fixed ++
      run '?' ((f.decimal.map DigitSpec.toCounts).getD {}).align ++
      run '#' ((f.decimal.map DigitSpec.toCounts).getD {}).flex = f.fractionDigits := by
  unfold fractionDigits
  cases f.decimal with
  | none => rfl
  | some spec =>
    cases spec with
    | fixed n =>
      have halign : run '?' 0 = [] := rfl
      have hflex : run '#' 0 = [] := rfl
      change run '0' n ++ run '?' 0 ++ run '#' 0 = run '0' n
      rw [halign, hflex, List.append_nil, List.append_nil]
    | counts c => rfl

/-- The characters that digits are declared with. -/
def IsPlaceholder (c : Char) : Prop := c = '#' ∨ c = '?' ∨ c = '0'

theorem IsPlaceholder.ne_comma {c : Char} (h : IsPlaceholder c) : c ≠ ',' := by
  obtain rfl | rfl | rfl := h <;> decide

/-- No placeholder is a quote or a backslash. -/
theorem IsPlaceholder.plain {c : Char} (h : IsPlaceholder c) : c ≠ '"' ∧ c ≠ '\\' := by
  obtain rfl | rfl | rfl := h <;> decide

/-- A run of a placeholder holds placeholders. -/
theorem isPlaceholder_of_mem_run {c d : Char} {n : UInt32} (hd : IsPlaceholder d) (h : c ∈ run d n) :
    IsPlaceholder c :=
  List.eq_of_mem_replicate h ▸ hd

/-- The declared digits before the point are placeholders. -/
theorem isPlaceholder_of_mem_wholeDigits {c : Char} (h : c ∈ f.wholeDigits) : IsPlaceholder c := by
  rw [← wholeDigits_eq, List.mem_append, List.mem_append] at h
  obtain (h | h) | h := h
  · exact isPlaceholder_of_mem_run (.inl rfl) h
  · exact isPlaceholder_of_mem_run (.inr (.inl rfl)) h
  · exact isPlaceholder_of_mem_run (.inr (.inr rfl)) h

/-- The digits that are filled up for the commas. -/
theorem isPlaceholder_of_mem_filled {c : Char} {n : Nat} (h : c ∈ List.replicate n '#' ++ f.wholeDigits) :
    IsPlaceholder c := by
  obtain h | h := List.mem_append.1 h
  · exact .inl (List.eq_of_mem_replicate h)
  · exact f.isPlaceholder_of_mem_wholeDigits h

/-- The integer part of a code is what stands before the point. -/
theorem isWhole_integerPart :
    f.IsWhole (integerPart ((f.integer.map DigitSpec.toCounts).getD { fixed := 1 }) f.commas) := by
  rw [IsWhole, integerPart, wholeDigits_eq]
  cases f.commas with
  | false => rfl
  | true => exact separated_grouped fun c hc => (f.isPlaceholder_of_mem_filled hc).ne_comma

/-- The digits after the point are placeholders. -/
theorem isPlaceholder_of_mem_fractionDigits {c : Char} (h : c ∈ f.fractionDigits) : IsPlaceholder c := by
  rw [← fractionDigits_eq, List.mem_append, List.mem_append] at h
  obtain (h | h) | h := h
  · exact isPlaceholder_of_mem_run (.inr (.inr rfl)) h
  · exact isPlaceholder_of_mem_run (.inr (.inl rfl)) h
  · exact isPlaceholder_of_mem_run (.inl rfl) h

/-- The point stands before the declared digits, and without a digit there is no point. -/
theorem isFraction_decimalPart :
    f.IsFraction (decimalPart ((f.decimal.map DigitSpec.toCounts).getD {})) := by
  rw [IsFraction, decimalPart, fractionDigits_eq]
  cases f.fractionDigits with
  | nil => rfl
  | cons c digits => rfl

/-! ## What a code is read as -/

variable {f}

/-- Before the point stand no quotes and no backslashes. -/
theorem IsWhole.plain {part : List Char} (h : f.IsWhole part) : ∀ c ∈ part, c ≠ '"' ∧ c ≠ '\\' := by
  intro c hc
  rw [IsWhole] at h
  split at h
  · by_cases hcomma : c = ','
    · rw [hcomma]
      decide
    · have hbare : c ∈ bare part := List.mem_filter.2 ⟨hc, by simpa using hcomma⟩
      rw [h.bare_eq] at hbare
      exact (f.isPlaceholder_of_mem_filled hbare).plain
  · rw [h] at hc
    exact (f.isPlaceholder_of_mem_wholeDigits hc).plain

/-- What stands behind the digits before the point has no quote and no backslash. -/
theorem IsFraction.plain {part : List Char} (h : f.IsFraction part) :
    ∀ c ∈ part, c ≠ '"' ∧ c ≠ '\\' := by
  intro c hc
  rw [IsFraction] at h
  split at h
  · rw [h] at hc
    cases hc
  · rw [h] at hc
    obtain rfl | hc := List.mem_cons.1 hc
    · decide
    · exact (f.isPlaceholder_of_mem_fractionDigits hc).plain

/-- The symbol of a code is the declared one, or a dollar. -/
theorem symbolText_eq (f : NumericFormat) : (f.symbol.getD defaultSymbol).toList = f.symbolText := by
  unfold symbolText
  cases f.symbol with
  | none => rfl
  | some text => rfl

/-- A code is its digits with the symbol or the percent sign around them. -/
theorem code_eq_around (f : NumericFormat) :
    f.code = f.around (literal f.symbolText)
      (integerPart ((f.integer.map DigitSpec.toCounts).getD { fixed := 1 }) f.commas ++
        decimalPart ((f.decimal.map DigitSpec.toCounts).getD {})) '%' := by
  rw [← symbolText_eq]
  unfold code around
  cases f.kind <;> cases f.position <;> rfl

/-- What a format puts together is read as what its parts are read as. -/
theorem ReadAs.around {symbol digits : List Char} {percent : Char} {shown codes : List Mark}
    (hsymbol : ReadAs symbol shown) (hdigits : ReadAs digits codes) (plain : percent ≠ '"' ∧ percent ≠ '\\')
    (f : NumericFormat) :
    ReadAs (f.around symbol digits percent) (f.around shown codes (.code percent)) := by
  have hpercent : ReadAs [percent] [.code percent] := .codes (by simpa using plain)
  unfold NumericFormat.around
  cases f.kind with
  | number => exact hdigits
  | percent => exact hdigits.append hpercent
  | currency =>
    cases f.position with
    | leading => exact hsymbol.append hdigits
    | trailing => exact hdigits.append hsymbol

/-- The code of a format is made of the digits before the point, the point and the digits after it, and a
percent sign behind them or a currency symbol on its side of them. Digits stand as they are declared, with
commas between thousands if these are declared. A reader of format codes shows the text of the currency
symbol, whatever characters it has, and reads all else as codes. -/
theorem code_means_declared (f : NumericFormat) : ∃ symbol whole fraction,
    f.pattern.toList = f.around symbol (whole ++ fraction) '%' ∧
    f.IsWhole whole ∧ f.IsFraction fraction ∧
    readMarks? false symbol = some (f.symbolText.map .shown) ∧
    readMarks? false f.pattern.toList =
      some (f.around (f.symbolText.map .shown) ((whole ++ fraction).map .code) (.code '%')) := by
  have hwhole := f.isWhole_integerPart
  have hfraction := f.isFraction_decimalPart
  have hcode : f.pattern.toList = _ := String.toList_ofList.trans f.code_eq_around
  have hdigits := ReadAs.codes (List.forall_mem_append.2 ⟨hwhole.plain, hfraction.plain⟩)
  have hpercent : '%' ≠ '"' ∧ '%' ≠ '\\' := by decide
  have hread := ReadAs.around (.literal f.symbolText) hdigits hpercent f
  refine ⟨_, _, _, hcode, hwhole, hfraction, (ReadAs.literal _).readMarks?_eq, ?_⟩
  rw [hcode]
  exact hread.readMarks?_eq

end NumericFormat

end Workbook

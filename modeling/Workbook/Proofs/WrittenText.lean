import Workbook.Json.Reader
import Workbook.Json.Writer
import Workbook.Proofs.Codecs.Arranged
import Workbook.Proofs.Grammar.Scanning

/-!
# Written text is read back

The reader takes one character after another, so what it makes of a written tree is shown piece by piece:
of a text between quotes, of a whole number, of items and of members. A number is the one value whose end is
not seen before something else comes, so a value that has been read whole is either done or such a number.

Trees with fractions are left out: the reader does not round as the writer does.
-/

namespace Workbook.Json

open Text

/-! ## Runs of the machine -/

/-- The machine takes some characters one by one. -/
inductive Machine.Takes : Machine → List Char → Machine → Prop where
  | nil (m : Machine) : Takes m [] m
  | cons {m next last : Machine} {c : Char} {cs : List Char} (hstep : m.step c = .ok next)
      (hrest : Takes next cs last) : Takes m (c :: cs) last

namespace Machine.Takes

variable {m next last : Machine} {cs ds : List Char}

/-- Characters are taken one after the other. -/
theorem append (h : m.Takes cs next) (h' : next.Takes ds last) : m.Takes (cs ++ ds) last := by
  induction h with
  | nil _ => exact h'
  | cons hstep _ ih => exact .cons hstep (ih h')

/-- A step takes one character. -/
theorem single {c : Char} (hstep : m.step c = .ok next) : m.Takes [c] next := .cons hstep (.nil next)

/-- Characters that change nothing are taken. -/
theorem stay (h : ∀ c ∈ cs, m.step c = .ok m) : m.Takes cs m := by
  induction cs with
  | nil => exact .nil m
  | cons c rest ih => exact .cons (h c List.mem_cons_self) (ih fun d hd => h d (List.mem_cons_of_mem c hd))

/-- A run goes on from where the machine is after the characters that it takes. -/
theorem run (h : m.Takes cs next) (place : Nat) (ds : List Char) :
    m.run place (cs ++ ds) = next.run (place + byteCount cs) ds := by
  induction h generalizing place with
  | nil _ => rw [List.nil_append, byteCount, Nat.add_zero]
  | cons hstep _ ih =>
    rw [List.cons_append, Machine.run, hstep]
    dsimp only
    rw [ih, byteCount, Nat.add_assoc]

end Machine.Takes

/-! ## Blanks and the ends of values -/

/-- A value may come. -/
inductive State.AwaitsValue : State → Prop where
  | value : AwaitsValue .value
  | firstItem : AwaitsValue .firstItem
  | nextItem : AwaitsValue .nextItem

/-- A key may come after some members. -/
inductive State.AwaitsKey : List (String × Json) → State → Prop where
  | first : AwaitsKey [] .firstKey
  | next (members : List (String × Json)) : AwaitsKey members (.nextKey members)

/-- A value has been read whole. Of a number this shows only when something else comes. -/
inductive Machine.Holds (stack : List Frame) (v : Json) : Machine → Prop where
  | done : Holds stack v ⟨stack, .done v⟩
  | number {n : NumberState} (hphase : n.phase = .zero ∨ n.phase = .whole) (hvalue : n.value? = some v) :
    Holds stack v ⟨stack, .number n⟩

section Ends

variable {stack : List Frame} {v : Json} {m : Machine} {state : State} {c : Char}

/-- The characters that come after a value. -/
def followers : List Char := [',', ']', '\x7d', ' ', '\t', '\n', '\r']

/-- A blank may come after a value. -/
theorem mem_followers_of_isSpace (h : isSpace c = true) : c ∈ followers := by
  simp only [isSpace, Bool.or_eq_true, beq_iff_eq] at h
  obtain ((rfl | rfl) | rfl) | rfl := h <;> decide

/-- No follower goes on with a number. -/
theorem number_ends_at_followers (h : c ∈ followers) :
    isDigit c = false ∧ c ≠ '.' ∧ (c = 'e' || c = 'E') = false := by
  simp only [followers, List.mem_cons, List.not_mem_nil, or_false] at h
  obtain rfl | rfl | rfl | rfl | rfl | rfl | rfl := h <;> decide

/-- After a value a character is taken as one that comes after it. -/
theorem Machine.Holds.step (h : m.Holds stack v) (hc : c ∈ followers) : m.step c = afterValue stack v c := by
  cases h with
  | done => rfl
  | number hphase hvalue =>
    obtain ⟨hdigit, hpoint, hmark⟩ := number_ends_at_followers hc
    obtain hphase | hphase := hphase <;>
      simp [Machine.step, inNumber, hphase, hdigit, hpoint, hmark, afterNumber, hvalue]

/-- After a value a text ends as one that ends after it. -/
theorem Machine.Holds.finish (h : m.Holds stack v) : m.finish = endAfterValue stack v := by
  cases h with
  | done => rfl
  | number hphase hvalue =>
    obtain hphase | hphase := hphase <;> simp [Machine.finish, hphase, hvalue]

/-- A blank after a value changes nothing. -/
theorem afterValue_of_isSpace (h : isSpace c = true) : afterValue stack v c = .ok ⟨stack, .done v⟩ := by
  unfold afterValue
  rw [if_pos h]

/-- Blanks after a value are taken. -/
theorem Machine.Holds.blanks (h : m.Holds stack v) {cs : List Char} (hcs : ∀ c ∈ cs, isSpace c = true) :
    ∃ next, m.Takes cs next ∧ next.Holds stack v := by
  cases cs with
  | nil => exact ⟨m, .nil m, h⟩
  | cons c rest =>
    have hspace : isSpace c = true := hcs c List.mem_cons_self
    have hfirst : m.step c = .ok ⟨stack, .done v⟩ := by
      rw [h.step (mem_followers_of_isSpace hspace), afterValue_of_isSpace hspace]
    have hrest : Machine.Takes ⟨stack, .done v⟩ rest ⟨stack, .done v⟩ :=
      .stay fun d hd => afterValue_of_isSpace (hcs d (List.mem_cons_of_mem c hd))
    exact ⟨_, .cons hfirst hrest, .done⟩

/-- A value that has been read and a follower that is no blank. -/
theorem Machine.Holds.close (h : m.Holds stack v) {blanks : List Char}
    (hblanks : ∀ c ∈ blanks, isSpace c = true) (hc : c ∈ followers) {next : Machine}
    (hnext : afterValue stack v c = .ok next) : m.Takes (blanks ++ [c]) next := by
  obtain ⟨held, htakes, hheld⟩ := h.blanks hblanks
  exact htakes.append (.single ((hheld.step hc).trans hnext))

/-- The characters of a line break are blanks. -/
theorem isSpace_break (layout : Layout) (level : Nat) : ∀ c ∈ layout.break level, isSpace c = true := by
  intro c hc
  cases layout with
  | compact => cases hc
  | indented =>
    obtain rfl | hc := List.mem_cons.1 hc
    · decide
    · rw [List.eq_of_mem_replicate hc]
      decide

/-- Blanks before a value are taken. -/
theorem State.AwaitsValue.blanks (h : state.AwaitsValue) {cs : List Char}
    (hcs : ∀ c ∈ cs, isSpace c = true) : Machine.Takes ⟨stack, state⟩ cs ⟨stack, state⟩ := by
  refine .stay fun c hc => ?_
  cases h <;> simp only [Machine.step, hcs c hc, if_true]

/-- Blanks before a key are taken. -/
theorem State.AwaitsKey.blanks {members : List (String × Json)} (h : state.AwaitsKey members) {cs : List Char}
    (hcs : ∀ c ∈ cs, isSpace c = true) : Machine.Takes ⟨stack, state⟩ cs ⟨stack, state⟩ := by
  refine .stay fun c hc => ?_
  cases h <;> simp only [Machine.step, hcs c hc, if_true]

/-- A value starts where it may come. -/
theorem State.AwaitsValue.start (h : state.AwaitsValue) (hspace : isSpace c = false) (hend : c ≠ ']') :
    Machine.step ⟨stack, state⟩ c = startValue stack c := by
  cases h <;> simp [Machine.step, hspace, hend]

end Ends

/-! ## Texts -/

section Texts

variable {stack : List Frame} {role : TextRole}

/-- A hexadecimal digit is read as its value. -/
theorem hexValue?_digitChar {k : Nat} (h : k < 16) : hexValue? k.digitChar = some k := by
  revert k
  decide

/-- A control character is written by two digits. -/
theorem control_digits {c : Char} (h : c.toNat < 0x20) :
    lowerHex (c.toNat % 16) = [(c.toNat % 16).digitChar] ∧
      hexValue? (if c.toNat < 0x10 then '0' else '1') = some (c.toNat / 16) := by
  refine ⟨Nat.toDigits_of_lt_base (Nat.mod_lt _ (by decide)), ?_⟩
  split
  · have hzero : c.toNat / 16 = 0 := by omega
    rw [hzero]
    decide
  · have hone : c.toNat / 16 = 1 := by omega
    rw [hone]
    decide

/-- An escape with a letter is taken for the character that it stands for. -/
theorem takes_escape {letter c : Char} (hletter : letter ≠ 'u') (hc : escaped? letter = some c) (chars : List Char) :
    Machine.Takes ⟨stack, .text role chars .plain⟩ ['\\', letter] ⟨stack, .text role (c :: chars) .plain⟩ := by
  have hslash : Machine.step ⟨stack, .text role chars .plain⟩ '\\' = .ok ⟨stack, .text role chars .escape⟩ := rfl
  refine .cons hslash (.single ?_)
  simp only [Machine.step, inText, if_neg hletter, hc]

/-- The four digits of a control character are taken for it. -/
theorem takes_control {c : Char} (h : c.toNat < 0x20) (chars : List Char) :
    Machine.Takes ⟨stack, .text role chars .plain⟩
      (['\\', 'u', '0', '0', if c.toNat < 0x10 then '0' else '1'] ++ lowerHex (c.toNat % 16))
      ⟨stack, .text role (c :: chars) .plain⟩ := by
  obtain ⟨hlower, hhigh⟩ := control_digits h
  have hlow : hexValue? (c.toNat % 16).digitChar = some (c.toNat % 16) :=
    hexValue?_digitChar (Nat.mod_lt _ (by decide))
  have hcode : 16 * (c.toNat / 16) + c.toNat % 16 = c.toNat := Nat.div_add_mod _ _
  have hfirst : Machine.step ⟨stack, .text role chars (.hex none 2 0)⟩ (if c.toNat < 0x10 then '0' else '1') =
      .ok ⟨stack, .text role chars (.hex none 3 (c.toNat / 16))⟩ := by simp [Machine.step, inText, hhigh]
  have hsecond : Machine.step ⟨stack, .text role chars (.hex none 3 (c.toNat / 16))⟩
      (c.toNat % 16).digitChar = .ok ⟨stack, .text role (c :: chars) .plain⟩ := by
    have htrail : isTrail c.toNat = false := by
      rw [isTrail, Bool.and_eq_false_iff, decide_eq_false_iff_not]
      exact .inl (by omega)
    have hlead : isLead c.toNat = false := by
      rw [isLead, Bool.and_eq_false_iff, decide_eq_false_iff_not]
      exact .inl (by omega)
    simp [Machine.step, inText, hlow, hcode, htrail, hlead, Char.ofNat_toNat]
  have hslash : Machine.step ⟨stack, .text role chars .plain⟩ '\\' = .ok ⟨stack, .text role chars .escape⟩ := rfl
  have hletter : Machine.step ⟨stack, .text role chars .escape⟩ 'u' =
      .ok ⟨stack, .text role chars (.hex none 0 0)⟩ := rfl
  have hzero : Machine.step ⟨stack, .text role chars (.hex none 0 0)⟩ '0' =
      .ok ⟨stack, .text role chars (.hex none 1 0)⟩ := rfl
  have hagain : Machine.step ⟨stack, .text role chars (.hex none 1 0)⟩ '0' =
      .ok ⟨stack, .text role chars (.hex none 2 0)⟩ := rfl
  rw [hlower]
  exact .cons hslash (.cons hletter (.cons hzero (.cons hagain (.cons hfirst (.single hsecond)))))

/-- The characters that are escaped by a letter. -/
def lettered : List Char := ['"', '\\', '\n', '\r', '\t', '\x08', '\x0c']

/-- A character of a text is taken for itself. -/
theorem takes_char (c : Char) (chars : List Char) :
    Machine.Takes ⟨stack, .text role chars .plain⟩ (writtenChar c) ⟨stack, .text role (c :: chars) .plain⟩ := by
  by_cases h : c ∈ lettered
  · simp only [lettered, List.mem_cons, List.not_mem_nil, or_false] at h
    obtain rfl | rfl | rfl | rfl | rfl | rfl | rfl := h <;> exact takes_escape (by decide) rfl chars
  · simp only [lettered, List.mem_cons, List.not_mem_nil, or_false, not_or] at h
    obtain ⟨hquote, hslash, hfeed, hreturn, htab, hback, hform⟩ := h
    simp only [writtenChar, if_neg hquote, if_neg hslash, if_neg hfeed, if_neg hreturn, if_neg htab,
      if_neg hback, if_neg hform]
    split
    · rename_i hcontrol
      exact takes_control hcontrol chars
    · rename_i hcontrol
      refine .single ?_
      simp only [Machine.step, inText, if_neg hquote, if_neg hslash, if_neg hcontrol]

/-- A text between quotes is taken up to its closing quote. -/
theorem takes_text (stack : List Frame) (role : TextRole) (s : String) :
    Machine.Takes ⟨stack, .text role [] .plain⟩ (s.toList.flatMap writtenChar ++ ['"'])
      (closeText stack s.toList.reverse role) := by
  have hchars : ∀ cs chars : List Char, Machine.Takes ⟨stack, .text role chars .plain⟩
      (cs.flatMap writtenChar) ⟨stack, .text role (cs.reverse ++ chars) .plain⟩ := by
    intro cs
    induction cs with
    | nil => exact fun chars => .nil _
    | cons c rest ih =>
      intro chars
      rw [List.flatMap_cons, List.reverse_cons, List.append_assoc]
      exact (takes_char c chars).append (ih (c :: chars))
  have hclose : Machine.step ⟨stack, .text role s.toList.reverse .plain⟩ '"' =
      .ok (closeText stack s.toList.reverse role) := rfl
  have hbody := hchars s.toList []
  rw [List.append_nil] at hbody
  exact hbody.append (.single hclose)

end Texts

/-! ## Whole numbers -/

section Numbers

variable {stack : List Frame}

/-- A whole number of which every digit has fitted. -/
def wholeNumber (negative : Bool) (n : Nat) : NumberState := ⟨negative, n, 0, false, false, 0, .whole⟩

/-- A digit that fits goes on with a whole number. -/
theorem step_wholeNumber (stack : List Frame) (negative : Bool) {n d : Nat} (hd : d < 10) (hbound : 10 * n + d < significandBound) :
    Machine.step ⟨stack, .number (wholeNumber negative n)⟩ d.digitChar =
      .ok ⟨stack, .number (wholeNumber negative (10 * n + d))⟩ := by
  simp [Machine.step, inNumber, wholeNumber, isDigit_digitChar hd, digitValue_digitChar hd,
    NumberState.wholeDigit, hbound]

/-- The digits of a number are taken where its first digit starts it. -/
theorem takes_digits (negative : Bool) {m : Machine} (hfirst : ∀ d, 0 < d → d < 10 →
      m.step d.digitChar = .ok ⟨stack, .number (wholeNumber negative d)⟩)
    {n : Nat} (hpos : 0 < n) (hbound : n < significandBound) :
    m.Takes (Nat.toDigits 10 n) ⟨stack, .number (wholeNumber negative n)⟩ := by
  induction n using Nat.strongRecOn with
  | ind n ih =>
    rw [Nat.toDigits_eq_if (by decide)]
    split
    · rename_i hsmall
      exact .single (hfirst n hpos hsmall)
    · have hsum : 10 * (n / 10) + n % 10 = n := Nat.div_add_mod n 10
      have hhigh : m.Takes (Nat.toDigits 10 (n / 10)) ⟨stack, .number (wholeNumber negative (n / 10))⟩ :=
        ih (n / 10) (by omega) (by omega) (by omega)
      have hlow : n % 10 < 10 := Nat.mod_lt n (by decide)
      have hfits : 10 * (n / 10) + n % 10 < significandBound := by omega
      have hlast := step_wholeNumber stack negative hlow hfits
      rw [hsum] at hlast
      exact hhigh.append (.single hlast)

/-- A digit from one on begins a number and nothing else. -/
theorem digitChar_start {d : Nat} (hpos : 0 < d) (hd : d < 10) :
    isSpace d.digitChar = false ∧ d.digitChar ≠ ']' ∧ d.digitChar ≠ '[' ∧ d.digitChar ≠ '\x7b' ∧
      d.digitChar ≠ '"' ∧ d.digitChar ≠ '-' ∧ d.digitChar ≠ '0' := by
  have hall : ∀ d < 10, 0 < d → isSpace d.digitChar = false ∧ d.digitChar ≠ ']' ∧ d.digitChar ≠ '[' ∧
      d.digitChar ≠ '\x7b' ∧ d.digitChar ≠ '"' ∧ d.digitChar ≠ '-' ∧ d.digitChar ≠ '0' := by decide
  exact hall d hd hpos

/-- A whole number of a machine word is taken where a value may come. -/
theorem takes_integer {state : State} (hstate : state.AwaitsValue) {i : Int} (hlow : -(greatestNegative : Int) ≤ i)
    (hhigh : i < significandBound) :
    ∃ m, Machine.Takes ⟨stack, state⟩ (toString i).toList m ∧ m.Holds stack (.integer i) := by
  cases i with
  | ofNat n =>
    have hbound : n < significandBound := Int.ofNat_lt.1 hhigh
    rw [toList_toString_ofNat]
    obtain rfl | hpos := Nat.eq_zero_or_pos n
    · refine ⟨⟨stack, .number ⟨false, 0, 0, false, false, 0, .zero⟩⟩, .single ?_, .number (.inl rfl) rfl⟩
      exact hstate.start (by decide) (by decide)
    · refine ⟨_, takes_digits false (fun d hd hten => ?_) hpos hbound, .number (.inr rfl) rfl⟩
      obtain ⟨hspace, hend, hlist, hobject, hquote, hminus, hzero⟩ := digitChar_start hd hten
      rw [hstate.start hspace hend]
      simp [startValue, hlist, hobject, hquote, hminus, hzero, isDigit_digitChar hten,
        digitValue_digitChar hten, wholeNumber]
  | negSucc n =>
    have hword : n + 1 ≤ greatestNegative := by omega
    have hbound : n + 1 < significandBound := Nat.lt_of_le_of_lt hword (by decide)
    have hminus : Machine.step ⟨stack, state⟩ '-' =
        .ok ⟨stack, .number ⟨true, 0, 0, false, false, 0, .minus⟩⟩ := hstate.start (by decide) (by decide)
    have hvalue : (wholeNumber true (n + 1)).value? = some (.integer (Int.negSucc n)) := by
      simp [wholeNumber, NumberState.value?, wholeValue, hword, Int.negSucc_eq]
    rw [toList_toString_negSucc]
    refine ⟨_, .cons hminus (takes_digits true (fun d hd hten => ?_) (Nat.succ_pos n) hbound),
      .number (.inr rfl) hvalue⟩
    have hfits : d < significandBound := Nat.lt_trans hten (by decide)
    simp [Machine.step, inNumber, (digitChar_start hd hten).2.2.2.2.2.2, isDigit_digitChar hten,
      digitValue_digitChar hten, NumberState.wholeDigit, hfits, wholeNumber]

end Numbers

/-! ## Trees -/

/-- A tree of at most some levels whose numbers are whole numbers of a machine word. -/
inductive Whole : Nat → Json → Prop where
  | null {n : Nat} : Whole n .null
  | boolean {n : Nat} (b : Bool) : Whole n (.boolean b)
  | integer {n : Nat} {i : Int} (hlow : -(greatestNegative : Int) ≤ i) (hhigh : i < significandBound) :
    Whole n (.integer i)
  | text {n : Nat} (s : String) : Whole n (.text s)
  | list {n : Nat} {items : List Json} (hitems : ∀ v ∈ items, Whole n v) : Whole (n + 1) (.list items)
  | object {n : Nat} {members : List (String × Json)} (hmembers : ∀ m ∈ members, Whole n m.2) :
    Whole (n + 1) (.object members)

section Trees

variable (layout : Layout)

/-- A tree that is written at a level is taken for its value where a value may come inside some open
lists and objects. -/
def TakenAt (level depth : Nat) (v : Json) : Prop :=
  ∀ (stack : List Frame) (state : State), stack.length = depth → state.AwaitsValue →
    ∃ m, Machine.Takes ⟨stack, state⟩ (write layout level v) m ∧ m.Holds stack v.arranged

variable {layout} {level depth : Nat} {outer : List Frame} {v : Json} {m : Machine}

/-- The items after one that has been read are taken up to the end of the list. -/
theorem takes_items {acc items : List Json} (hm : m.Holds (.list acc :: outer) v)
    (hitems : ∀ item ∈ items, TakenAt layout level (outer.length + 1) item) {blanks : List Char}
    (hblanks : ∀ c ∈ blanks, isSpace c = true) :
    m.Takes (writeItems layout level items ++ (blanks ++ [']']))
      ⟨outer, .done (.list ((v :: acc).reverse ++ arrangedItems items))⟩ := by
  induction items generalizing acc v m with
  | nil =>
    rw [writeItems, arrangedItems, List.append_nil, List.nil_append]
    exact hm.close hblanks (by decide) rfl
  | cons item rest ih =>
    have hcomma : m.step ',' = .ok ⟨.list (v :: acc) :: outer, .nextItem⟩ := (hm.step (by decide)).trans rfl
    obtain ⟨next, htakes, hnext⟩ := hitems item List.mem_cons_self (.list (v :: acc) :: outer) .nextItem rfl .nextItem
    have hrest := ih hnext fun other hother => hitems other (List.mem_cons_of_mem item hother)
    have hbreak : Machine.Takes ⟨.list (v :: acc) :: outer, .nextItem⟩ (layout.break level)
        ⟨.list (v :: acc) :: outer, .nextItem⟩ := State.AwaitsValue.nextItem.blanks (isSpace_break layout level)
    have hall := (Machine.Takes.cons hcomma hbreak).append (htakes.append hrest)
    rw [writeItems, arrangedItems]
    simpa only [List.cons_append, List.append_assoc, List.reverse_cons, List.nil_append] using hall

/-- A member is taken up to the end of its value where a key may come. -/
theorem takes_member (outer : List Frame) {held : List (String × Json)} {state : State} (hstate : state.AwaitsKey held) (key : String)
    (hv : TakenAt layout level (outer.length + 1) v) :
    ∃ m, Machine.Takes ⟨outer, state⟩ (writeText key ++ layout.colon ++ write layout level v) m ∧
      m.Holds (.object held key :: outer) v.arranged := by
  obtain ⟨m, htakes, hm⟩ := hv (.object held key :: outer) .value rfl .value
  have hquote : Machine.step ⟨outer, state⟩ '"' = .ok ⟨outer, .text (.key held) [] .plain⟩ := by
    cases hstate <;> rfl
  have hkey : Machine.Takes ⟨outer, .text (.key held) [] .plain⟩ (key.toList.flatMap writtenChar ++ ['"'])
      ⟨outer, .colon held key⟩ := by
    have htext := takes_text outer (.key held) key
    rwa [closeText, List.reverse_reverse, String.ofList_toList] at htext
  have hcolon : Machine.Takes ⟨outer, .colon held key⟩ layout.colon ⟨.object held key :: outer, .value⟩ := by
    cases layout with
    | compact => exact .single rfl
    | indented => exact .cons rfl (.single rfl)
  exact ⟨m, ((Machine.Takes.cons hquote hkey).append hcolon).append htakes, hm⟩

/-- The members after one that has been read are taken up to the end of the object. -/
theorem takes_members {held members : List (String × Json)} {key : String}
    (hm : m.Holds (.object held key :: outer) v)
    (hmembers : ∀ x ∈ members, TakenAt layout level (outer.length + 1) x.2) {blanks : List Char}
    (hblanks : ∀ c ∈ blanks, isSpace c = true) :
    m.Takes (writeMembers layout level members ++ (blanks ++ ['\x7d']))
      ⟨outer, .done (.object (arrangedOnto (insertMember key v held) members))⟩ := by
  induction members generalizing held key v m with
  | nil =>
    rw [writeMembers, arrangedOnto, List.nil_append]
    exact hm.close hblanks (by decide) rfl
  | cons x rest ih =>
    obtain ⟨name, w⟩ := x
    have hcomma : m.step ',' = .ok ⟨outer, .nextKey (insertMember key v held)⟩ :=
      (hm.step (by decide)).trans rfl
    have hkey : State.AwaitsKey (insertMember key v held) (.nextKey (insertMember key v held)) := .next _
    obtain ⟨next, htakes, hnext⟩ := takes_member outer hkey name (hmembers (name, w) List.mem_cons_self)
    have hrest := ih hnext fun other hother => hmembers other (List.mem_cons_of_mem (name, w) hother)
    have hall := (Machine.Takes.cons hcomma (hkey.blanks (isSpace_break layout level))).append
      (htakes.append hrest)
    rw [writeMembers, arrangedOnto]
    simpa only [List.cons_append, List.append_assoc] using hall

/-- A list is taken where one more may be open, if its items are taken inside it. -/
theorem takenAt_list {items : List Json} (hdepth : depth + 1 < depthLimit)
    (hitems : ∀ item ∈ items, TakenAt layout (level + 1) (depth + 1) item) :
    TakenAt layout level depth (.list items) := by
  rintro stack state rfl hstate
  have hopen : Machine.step ⟨stack, state⟩ '[' = .ok ⟨.list [] :: stack, .firstItem⟩ := by
    rw [hstate.start (by decide) (by decide), startValue, if_pos rfl, if_pos hdepth]
  rw [arranged]
  cases items with
  | nil => exact ⟨_, .cons hopen (.single rfl), .done⟩
  | cons item rest =>
    obtain ⟨m, htakes, hm⟩ := hitems item List.mem_cons_self (.list [] :: stack) .firstItem rfl .firstItem
    have hrest := takes_items hm (fun v hv => hitems v (List.mem_cons_of_mem item hv))
      (isSpace_break layout level)
    have hbreak : Machine.Takes ⟨.list [] :: stack, .firstItem⟩ (layout.break (level + 1))
        ⟨.list [] :: stack, .firstItem⟩ := State.AwaitsValue.firstItem.blanks (isSpace_break layout (level + 1))
    have htotal := (Machine.Takes.cons hopen hbreak).append (htakes.append hrest)
    refine ⟨_, ?_, .done⟩
    rw [write, arrangedItems]
    simpa only [List.cons_append, List.append_assoc, List.reverse_cons, List.reverse_nil, List.nil_append]
      using htotal

/-- An object is taken where one more may be open, if the values of its members are taken inside it. -/
theorem takenAt_object {members : List (String × Json)} (hdepth : depth + 1 < depthLimit)
    (hmembers : ∀ x ∈ members, TakenAt layout (level + 1) (depth + 1) x.2) :
    TakenAt layout level depth (.object members) := by
  rintro stack state rfl hstate
  have hopen : Machine.step ⟨stack, state⟩ '\x7b' = .ok ⟨stack, .firstKey⟩ := by
    rw [hstate.start (by decide) (by decide), startValue, if_neg (by decide), if_pos rfl, if_pos hdepth]
  rw [arranged]
  cases members with
  | nil => exact ⟨_, .cons hopen (.single rfl), .done⟩
  | cons x rest =>
    obtain ⟨key, w⟩ := x
    obtain ⟨m, htakes, hm⟩ := takes_member stack .first key (hmembers (key, w) List.mem_cons_self)
    have hrest := takes_members hm (fun x hx => hmembers x (List.mem_cons_of_mem (key, w) hx))
      (isSpace_break layout level)
    have hbreak : Machine.Takes ⟨stack, .firstKey⟩ (layout.break (level + 1)) ⟨stack, .firstKey⟩ :=
      State.AwaitsKey.first.blanks (isSpace_break layout (level + 1))
    have htotal := (Machine.Takes.cons hopen hbreak).append (htakes.append hrest)
    refine ⟨_, ?_, .done⟩
    rw [write, arrangedOnto]
    simpa only [List.cons_append, List.append_assoc] using htotal

/-- A written tree is taken for itself with its members in order, unless too much is open. -/
theorem takenAt {n : Nat} (h : Whole n v) (level : Nat) (hdepth : depth + n < depthLimit) :
    TakenAt layout level depth v := by
  induction h generalizing level depth with
  | null =>
    intro stack state _ hstate
    refine ⟨⟨stack, .done .null⟩, .cons (hstate.start (by decide) (by decide)) ?_, .done⟩
    exact .cons rfl (.cons rfl (.single rfl))
  | boolean b =>
    intro stack state _ hstate
    refine ⟨⟨stack, .done (.boolean b)⟩, ?_, .done⟩
    cases b with
    | false =>
      refine .cons (hstate.start (by decide) (by decide)) ?_
      exact .cons rfl (.cons rfl (.cons rfl (.single rfl)))
    | true =>
      refine .cons (hstate.start (by decide) (by decide)) ?_
      exact .cons rfl (.cons rfl (.single rfl))
  | integer hlow hhigh =>
    intro stack state _ hstate
    rw [write, arranged]
    exact takes_integer hstate hlow hhigh
  | text s =>
    intro stack state _ hstate
    have hquote : Machine.step ⟨stack, state⟩ '"' = .ok ⟨stack, .text .value [] .plain⟩ :=
      hstate.start (by decide) (by decide)
    have htext := takes_text stack .value s
    rw [closeText, List.reverse_reverse, String.ofList_toList] at htext
    rw [write, arranged]
    exact ⟨_, .cons hquote htext, .done⟩
  | list _ ih => exact takenAt_list (by omega) fun v hv => ih v hv (level + 1) (by omega)
  | object _ ih => exact takenAt_object (by omega) fun x hx => ih x hx (level + 1) (by omega)

/-- A document is read back with the members of its objects in order, with or without blanks at its end. -/
theorem read_render {n : Nat} (h : Whole n v) (hn : n < depthLimit) {blanks : String}
    (hblanks : blanks.toList.all isSpace = true) : read (render layout v ++ blanks) = .ok v.arranged := by
  have htaken : TakenAt layout 0 0 v := takenAt h 0 (by omega)
  obtain ⟨m, htakes, hm⟩ := htaken [] .value rfl .value
  obtain ⟨last, hend, hlast⟩ := hm.blanks (List.all_eq_true.1 hblanks)
  have hrun := (htakes.append hend).run 0 []
  rw [List.append_nil] at hrun
  rw [read, Machine.start, String.toList_append, render, String.toList_ofList, hrun, Machine.run, hlast.finish]
  rfl

end Trees

end Workbook.Json

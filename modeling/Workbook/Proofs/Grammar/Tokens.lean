import Workbook.Expression
import Workbook.Proofs.Grammar.References

/-!
# The tokens of formula text

Formula text is cut into numbers, quoted texts, names of functions, truth values, references, operators,
parentheses and commas. A word in front of an opening parenthesis is the name of a function; any other word
is a reference or a truth value. Signs of two characters are taken before signs of one. A token whose text
is followed by what may follow it in a formula is read back.
-/

namespace Workbook.Grammar

/-! ## Tokens and their reader -/

/-- A token of formula text. -/
inductive Token where
  | number (chars : List Char)
  | text (content : List Char)
  /-- The name of a function. -/
  | name (chars : List Char)
  | boolean (b : Bool)
  | reference (r : A1.Reference)
  | operator (operator : Operator)
  | opening
  | closing
  | comma
deriving DecidableEq, Repr

/-- A character that names of functions begin with. -/
def isNameStart (c : Char) : Bool := ('A' ≤ c && c ≤ 'Z') || ('a' ≤ c && c ≤ 'z') || c == '_'

/-- A character of names of functions. -/
def isNameChar (c : Char) : Bool := isNameStart c || Text.isDigit c || c == '.'

/-- The name of a function. -/
def isName : List Char → Bool
  | [] => false
  | c :: cs => isNameStart c && cs.all isNameChar

/-- The characters that signs of operators begin with. -/
def signs : List Char := ['+', '-', '*', '/', '^', '&', '=', '<', '>']

/-- Read the sign of an operator. -/
def sign? : List Char → Option (Operator × List Char)
  | '<' :: '>' :: cs => some (.notEqual, cs)
  | '<' :: '=' :: cs => some (.lessOrEqual, cs)
  | '>' :: '=' :: cs => some (.greaterOrEqual, cs)
  | '<' :: cs => some (.less, cs)
  | '>' :: cs => some (.greater, cs)
  | '=' :: cs => some (.equal, cs)
  | '+' :: cs => some (.add, cs)
  | '-' :: cs => some (.subtract, cs)
  | '*' :: cs => some (.multiply, cs)
  | '/' :: cs => some (.divide, cs)
  | '^' :: cs => some (.power, cs)
  | '&' :: cs => some (.concat, cs)
  | _ => none

/-- The text of a truth value. -/
def booleanChars (b : Bool) : List Char := if b then ['T', 'R', 'U', 'E'] else ['F', 'A', 'L', 'S', 'E']

/-- Read the name of a function, a reference or a truth value. -/
def word? (cs : List Char) : Option (Token × List Char) :=
  let name := cs.takeWhile isNameChar
  let rest := cs.dropWhile isNameChar
  if isName name && rest.head? == some '(' then some (.name name, rest)
  else match A1.reference? cs with
    | some (r, rest) => some (.reference r, rest)
    | none =>
      if name = booleanChars true then some (.boolean true, rest)
      else if name = booleanChars false then some (.boolean false, rest)
      else none

/-- Read a token, and what follows it. -/
def next? : List Char → Option (Token × List Char)
  | [] => none
  | c :: cs =>
    if c = '(' then some (.opening, cs)
    else if c = ')' then some (.closing, cs)
    else if c = ',' then some (.comma, cs)
    else if c = '"' then (quoted? '"' cs).map fun (content, rest) => (.text content, rest)
    else if Text.isDigit c then some (.number (numeral (c :: cs)).1, (numeral (c :: cs)).2)
    else if signs.contains c then (sign? (c :: cs)).map fun (operator, rest) => (.operator operator, rest)
    else word? (c :: cs)

/-- Read all tokens of a text. Every token has a character. -/
def tokens? (cs : List Char) : Option (List Token) :=
  if cs.isEmpty then some []
  else match next? cs with
    | some (t, rest) => if rest.length < cs.length then (tokens? rest).map (t :: ·) else none
    | none => none
termination_by cs.length

/-! ## Their text -/

/-- The text of a token. -/
def Token.chars : Token → List Char
  | .number cs => cs
  | .text content => '"' :: content.flatMap (doubled '"') ++ ['"']
  | .name cs => cs
  | .boolean b => booleanChars b
  | .reference r => r.chars
  | .operator op => op.token.toList
  | .opening => ['(']
  | .closing => [')']
  | .comma => [',']

/-- The text of tokens, one after the other. -/
def spell (ts : List Token) : List Char := ts.flatMap Token.chars

/-- The characters of a token are those of its kind. -/
def Token.Wellformed : Token → Prop
  | .number cs => IsNumeral cs
  | .name cs => isName cs
  | _ => True

/-- The token is not read differently because of what follows it. -/
def Token.Before (rest : List Char) : Token → Prop
  | .number _ | .text _ | .boolean _ | .reference _ => Closes rest
  | .name _ => rest.head? = some '('
  | .operator _ => StopsAt (fun c => c == '>' || c == '=') rest
  | _ => True

/-! ## Reading the text -/

variable {rest : List Char}

/-- The characters that decide the kind of a token by themselves. -/
def marks : List Char := ['(', ')', ',', '"']

/-- What does not begin with a mark is a numeral, a sign or a word. -/
theorem next?_of_not_mark {c : Char} {cs : List Char} (h : c ∉ marks) :
    next? (c :: cs) =
      if Text.isDigit c then some (.number (numeral (c :: cs)).1, (numeral (c :: cs)).2)
      else if signs.contains c then (sign? (c :: cs)).map fun (operator, rest) => (.operator operator, rest)
      else word? (c :: cs) := by
  simp only [marks, List.mem_cons, List.not_mem_nil, or_false, not_or] at h
  rw [next?, if_neg h.1, if_neg h.2.1, if_neg h.2.2.1, if_neg h.2.2.2]

/-- What begins with a digit is a numeral. -/
theorem next?_digit {c : Char} {cs : List Char} (h : Text.isDigit c) :
    next? (c :: cs) = some (.number (numeral (c :: cs)).1, (numeral (c :: cs)).2) := by
  have hmark : marks.any Text.isDigit = false := by decide
  rw [List.any_eq_false] at hmark
  rw [next?_of_not_mark fun hc => hmark c hc h, if_pos h]

/-- What begins like a sign is one. -/
theorem next?_sign {c : Char} {cs : List Char} (h : c ∈ signs) :
    next? (c :: cs) = (sign? (c :: cs)).map fun (operator, rest) => (.operator operator, rest) := by
  have hmark : signs.any marks.contains = false := by decide
  have hdigit : signs.any Text.isDigit = false := by decide
  rw [List.any_eq_false] at hmark hdigit
  have hnot : c ∉ marks := fun hc => hmark c h (List.contains_iff_mem.2 hc)
  rw [next?_of_not_mark hnot, if_neg (hdigit c h), if_pos (List.contains_iff_mem.2 h)]

/-- A character that words begin with. -/
def isWordStart (c : Char) : Bool := isNameStart c || c == '$' || c == '\''

/-- Names begin with a letter of either case or an underscore. -/
theorem isNameStart_iff {c : Char} : isNameStart c ↔
    ((65 ≤ c.toNat ∧ c.toNat ≤ 90) ∨ (97 ≤ c.toNat ∧ c.toNat ≤ 122)) ∨ c = '_' := by
  simp only [isNameStart, Bool.or_eq_true, Bool.and_eq_true, decide_eq_true_eq, beq_iff_eq]
  exact Iff.rfl

/-- What begins like a word is one. -/
theorem next?_word {c : Char} {cs : List Char} (h : isWordStart c) : next? (c :: cs) = word? (c :: cs) := by
  have hmark : marks.any isWordStart = false := by decide
  have hsign : signs.any isWordStart = false := by decide
  rw [List.any_eq_false] at hmark hsign
  have hdigit : ¬Text.isDigit c := by
    intro hd
    rw [Text.isDigit_iff] at hd
    rw [isWordStart, Bool.or_eq_true, Bool.or_eq_true, isNameStart_iff, beq_iff_eq, beq_iff_eq] at h
    obtain ((h | rfl) | rfl) | rfl := h
    · omega
    · revert hd; decide
    · revert hd; decide
    · revert hd; decide
  have hnot : ¬signs.contains c := fun hs => hsign c (List.contains_iff_mem.1 hs) h
  rw [next?_of_not_mark fun hc => hmark c hc h, if_neg hdigit, if_neg hnot]

/-! ## Words -/

/-- What begins like a name begins like a word. -/
theorem isWordStart_of_isNameStart {c : Char} (h : isNameStart c) : isWordStart c := by
  rw [isWordStart, h, Bool.true_or, Bool.true_or]

/-- The name of a function begins like a word. -/
theorem isName_start {cs : List Char} (h : isName cs) : ∃ c ds, cs = c :: ds ∧ isWordStart c := by
  cases cs with
  | nil => cases h
  | cons c ds => exact ⟨c, ds, rfl, isWordStart_of_isNameStart (Bool.and_eq_true_iff.1 h).1⟩

/-- All characters of a name are those of names. -/
theorem isNameChar_of_isName {cs : List Char} (h : isName cs) : ∀ c ∈ cs, isNameChar c := by
  cases cs with
  | nil => cases h
  | cons d ds =>
    rw [isName, Bool.and_eq_true, List.all_eq_true] at h
    intro c hc
    obtain rfl | hc := List.mem_cons.1 hc
    · rw [isNameChar, h.1, Bool.true_or, Bool.true_or]
    · exact h.2 c hc

/-- The name of a function is read back in front of an opening parenthesis. -/
theorem word?_name {cs : List Char} (h : isName cs) (call : rest.head? = some '(') :
    word? (cs ++ rest) = some (.name cs, rest) := by
  have stop : StopsAt isNameChar rest := by
    intro c hc
    rw [call, Option.mem_some] at hc
    subst hc
    decide
  have hall := isNameChar_of_isName h
  simp only [word?, takeWhile_append hall stop, dropWhile_append hall stop, h, call, beq_self_eq_true,
    Bool.and_self, if_true]

/-- No text of a component holds a parenthesis. -/
theorem not_mem_component {test : Char → Bool} {number : List Char → Nat} {spell : Nat → List Char}
    (spells : A1.Spells test number spell) (apart : test '(' = false) (c : A1.Component) :
    '(' ∉ c.chars spell := by
  intro h
  rw [A1.Component.chars, List.mem_append] at h
  obtain h | h := h
  · split at h
    · revert h; decide
    · cases h
  · rw [spells.members _ '(' h] at apart
    cases apart

/-- No parenthesis stands in the text of a cell. -/
theorem not_mem_cell (c : A1.Cell) : '(' ∉ c.chars := by
  rw [A1.Cell.chars, List.mem_append, not_or]
  exact ⟨not_mem_component A1.spells_letters (by decide) c.column,
    not_mem_component A1.spells_digits (by decide) c.row⟩

/-- No parenthesis stands in the text of a reference without a page. -/
theorem not_mem_reference (first : A1.Cell) (last : Option A1.End) :
    '(' ∉ (⟨none, first, last⟩ : A1.Reference).chars := by
  rw [A1.Reference.chars, List.mem_append, List.mem_append, not_or, not_or]
  refine ⟨⟨List.not_mem_nil, not_mem_cell first⟩, ?_⟩
  cases last with
  | none => exact List.not_mem_nil
  | some e =>
    rw [Option.elim_some, List.mem_cons, not_or]
    refine ⟨by decide, ?_⟩
    cases e with
    | cell c => exact not_mem_cell c
    | column c => exact not_mem_component A1.spells_letters (by decide) c

/-- A reference is not the name of a function. -/
theorem not_name_reference (r : A1.Reference) (stop : Closes rest) :
    (isName ((r.chars ++ rest).takeWhile isNameChar) &&
      ((r.chars ++ rest).dropWhile isNameChar).head? == some '(') = false := by
  obtain ⟨page, first, last⟩ := r
  cases page with
  | some name => rfl
  | none =>
    rw [Bool.and_eq_false_iff]
    right
    rw [beq_eq_false_iff_ne]
    intro hcall
    have hstop : StopsAt isNameChar rest := stop.stopsAt (by decide)
    obtain h | h := head_dropWhile_append hstop '(' hcall
    · exact not_mem_reference first last h
    · have hcloser := stop '(' h
      revert hcloser
      decide

/-- A reference is read back when an operand ends there. -/
theorem word?_reference (r : A1.Reference) (stop : Closes rest) :
    word? (r.chars ++ rest) = some (.reference r, rest) := by
  have hname := not_name_reference r stop
  simp only [word?, hname, A1.reference?_chars r stop, Bool.false_eq_true, if_false]

/-- A truth value has no row, so it is no reference. -/
theorem reference?_boolean (b : Bool) (stop : Closes rest) :
    A1.reference? (booleanChars b ++ rest) = none := by
  have hletter : StopsAt Address.isLetter rest := stop.stopsAt (by decide)
  have hrow : A1.row? rest = none :=
    A1.component?_none A1.spells_digits (stop.stopsAt (by decide)) (stop.stopsAt (by decide))
  have hletters : ∀ c ∈ booleanChars b, Address.isLetter c :=
    List.all_eq_true.1 (by cases b <;> decide)
  have hpage : A1.page? (booleanChars b ++ rest) = some (none, booleanChars b ++ rest) := by
    cases b <;> rfl
  have hmark : A1.marked (booleanChars b ++ rest) = (false, booleanChars b ++ rest) := by
    cases b <;> rfl
  obtain ⟨n, hn⟩ : ∃ n, Address.readLetters (booleanChars b) = n + 1 := by
    cases b
    · exact ⟨_, rfl⟩
    · exact ⟨_, rfl⟩
  have hcolumn : A1.column? (booleanChars b ++ rest) = some (⟨false, n⟩, rest) := by
    simp only [A1.column?, A1.component?, hmark, takeWhile_append hletters hletter,
      dropWhile_append hletters hletter, hn]
  simp only [A1.reference?, hpage, A1.cell?, hcolumn, hrow, Option.bind_eq_bind, Option.bind_some,
    Option.bind_none]

/-- A truth value is read back when an operand ends there. -/
theorem word?_boolean (b : Bool) (stop : Closes rest) :
    word? (booleanChars b ++ rest) = some (.boolean b, rest) := by
  have hstop : StopsAt isNameChar rest := stop.stopsAt (by decide)
  have hall : ∀ c ∈ booleanChars b, isNameChar c := List.all_eq_true.1 (by cases b <;> decide)
  have hcall : (rest.head? == some '(') = false := by
    rw [beq_eq_false_iff_ne]
    intro h
    have hcloser := stop '(' h
    revert hcloser
    decide
  simp only [word?, takeWhile_append hall hstop, dropWhile_append hall hstop, hcall, Bool.and_false,
    Bool.false_eq_true, if_false, reference?_boolean b stop]
  cases b <;> rfl

/-! ## Tokens -/

/-- The sign of an operator is read back when it does not go on. -/
theorem sign?_token (op : Operator) (stop : StopsAt (fun c => c == '>' || c == '=') rest) :
    sign? (op.token.toList ++ rest) = some (op, rest) := by
  have greater (cs : List Char) : rest ≠ '>' :: cs := by
    rintro rfl
    have h := stop '>' rfl
    simp at h
  have equal (cs : List Char) : rest ≠ '=' :: cs := by
    rintro rfl
    have h := stop '=' rfl
    simp at h
  cases op with
  | less => exact sign?.eq_4 rest greater equal
  | greater => exact sign?.eq_5 rest equal
  | _ => rfl

/-- An operator is read back from its sign. -/
theorem next?_operator (op : Operator) (stop : StopsAt (fun c => c == '>' || c == '=') rest) :
    next? (op.token.toList ++ rest) = some (.operator op, rest) := by
  obtain ⟨c, cs, hop, hsign⟩ : ∃ c cs, op.token.toList = c :: cs ∧ c ∈ signs := by
    cases op <;> exact ⟨_, _, rfl, by decide⟩
  have hread := sign?_token op stop
  rw [hop, List.cons_append] at hread ⊢
  rw [next?_sign hsign, hread]
  rfl

/-- The text of a reference begins like a word. -/
theorem reference_start (r : A1.Reference) : ∃ c cs, r.chars = c :: cs ∧ isWordStart c := by
  obtain ⟨page, first, last⟩ := r
  cases page with
  | some name => exact ⟨'\'', _, rfl, by decide⟩
  | none =>
    obtain ⟨⟨fixed, n⟩, row⟩ := first
    cases fixed with
    | true => exact ⟨'$', _, rfl, by decide⟩
    | false =>
      obtain ⟨c, cs, hc⟩ := List.exists_cons_of_ne_nil (A1.Spells.ne_nil A1.spells_letters n)
      have hletter := A1.spells_letters.members (n + 1) c (by rw [hc]; exact List.mem_cons_self)
      have hstart : isNameStart c := isNameStart_iff.2 (.inl (.inl (Address.isLetter_iff.1 hletter)))
      have hchars : (⟨none, ⟨⟨false, n⟩, row⟩, last⟩ : A1.Reference).chars =
          Address.lettersFrom (n + 1) ++ A1.rowChars row ++ last.elim [] fun e => ':' :: e.chars := rfl
      rw [hc] at hchars
      exact ⟨c, _, hchars, isWordStart_of_isNameStart hstart⟩

/-- A token is read back in front of what does not change it. -/
theorem next?_chars {t : Token} (wellformed : t.Wellformed) (before : t.Before rest) :
    next? (t.chars ++ rest) = some (t, rest) := by
  cases t with
  | number cs =>
    have closes : Closes rest := before
    have hread := numeral_append wellformed (closes.stopsAt (by decide)) (closes.stopsAt (by decide))
    obtain ⟨d, ds, hcs, hd⟩ : ∃ d ds, cs = d :: ds ∧ Text.isDigit d := wellformed.start
    subst hcs
    have hnext := @next?_digit d (ds ++ rest) hd
    rw [List.cons_append] at hread
    rw [hread] at hnext
    exact hnext
  | text content =>
    have closes : Closes rest := before
    have hread : quoted? '"' (content.flatMap (doubled '"') ++ '"' :: rest) = some (content, rest) :=
      quoted?_doubled content (closes.stopsAt (by decide))
    have htext : Token.chars (.text content) ++ rest =
        '"' :: (content.flatMap (doubled '"') ++ '"' :: rest) := by
      simp only [Token.chars, List.cons_append, List.append_assoc, List.nil_append]
    rw [htext, next?]
    simp only [hread]
    rfl
  | name cs =>
    have hword := word?_name wellformed before
    obtain ⟨c, ds, rfl, hstart⟩ := isName_start wellformed
    have hnext : next? (c :: (ds ++ rest)) = word? (c :: (ds ++ rest)) := next?_word hstart
    exact hnext.trans hword
  | boolean b =>
    have hword := word?_boolean b before
    have hnext : next? (booleanChars b ++ rest) = word? (booleanChars b ++ rest) := by
      cases b
      · exact next?_word (by decide)
      · exact next?_word (by decide)
    exact hnext.trans hword
  | reference r =>
    obtain ⟨c, cs, hr, hstart⟩ := reference_start r
    have hword := word?_reference r before
    rw [hr, List.cons_append] at hword
    rw [Token.chars, hr, List.cons_append, next?_word hstart, hword]
  | operator op => exact next?_operator op before
  | opening => rfl
  | closing => rfl
  | comma => rfl

/-- A token has a character. -/
theorem Token.chars_ne_nil {t : Token} (wellformed : t.Wellformed) : t.chars ≠ [] := by
  cases t with
  | number cs =>
    obtain ⟨d, ds, rfl, -⟩ := IsNumeral.start wellformed
    exact List.cons_ne_nil d ds
  | text content => exact List.cons_ne_nil _ _
  | name cs =>
    rintro rfl
    cases wellformed
  | boolean b => cases b <;> exact List.cons_ne_nil _ _
  | reference r =>
    obtain ⟨c, cs, hr, -⟩ := reference_start r
    rw [Token.chars, hr]
    exact List.cons_ne_nil c cs
  | operator op => cases op <;> exact List.cons_ne_nil _ _
  | opening => exact List.cons_ne_nil _ _
  | closing => exact List.cons_ne_nil _ _
  | comma => exact List.cons_ne_nil _ _

/-- The tokens of a text begin with the token that it begins with. -/
theorem tokens?_chars {t : Token} (wellformed : t.Wellformed) (before : t.Before rest) :
    tokens? (t.chars ++ rest) = (tokens? rest).map (t :: ·) := by
  have hlength : rest.length < (t.chars ++ rest).length := by
    have hpos := List.length_pos_iff.2 (Token.chars_ne_nil wellformed)
    rw [List.length_append]
    omega
  have hempty : (t.chars ++ rest).isEmpty = false := by
    rw [List.isEmpty_eq_false_iff]
    exact fun h => Token.chars_ne_nil wellformed (List.append_eq_nil_iff.1 h).1
  rw [tokens?, hempty, next?_chars wellformed before]
  simp only [Bool.false_eq_true, if_false, hlength, if_true]

end Workbook.Grammar

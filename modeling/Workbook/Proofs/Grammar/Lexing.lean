import Workbook.Proofs.Grammar.Trees

/-!
# Formula text as its tokens

The text of a formula is cut into the tokens it was made of, wherever the formula ends or goes on after an
operand. Operators are followed by an operand, which never begins like the second character of a sign, and
operands are followed by a closer, so no token grows or shrinks.
-/

namespace Workbook.Grammar

/-- The text of tokens is cut into them when an operand ends there. -/
def Lexes (ts : List Token) : Prop :=
  ∀ rest, Closes rest → tokens? (spell ts ++ rest) = (tokens? rest).map (ts ++ ·)

theorem spell_cons (t : Token) (ts : List Token) : spell (t :: ts) = t.chars ++ spell ts := rfl

theorem spell_append (xs ys : List Token) : spell (xs ++ ys) = spell xs ++ spell ys :=
  List.flatMap_append

/-- What begins with a closer goes on after an operand. -/
theorem closes_cons {c : Char} (h : c ∈ closers) (cs : List Char) : Closes (c :: cs) := by
  intro d hd
  cases hd
  exact h

section Lists

variable {t : Token} {xs ys : List Token}

/-- A token in front of others is read when they do not change it. -/
theorem Lexes.cons (wellformed : t.Wellformed) (before : ∀ rest, Closes rest → t.Before (spell ys ++ rest))
    (h : Lexes ys) : Lexes (t :: ys) := by
  intro rest closes
  rw [spell_cons, List.append_assoc, tokens?_chars wellformed (before rest closes), h rest closes,
    Option.map_map]
  rfl

/-- No tokens are cut from no text. -/
theorem Lexes.nil : Lexes [] := by
  intro rest _
  exact Option.map_id_apply.symm

/-- A token that may end an operand is read. -/
theorem Lexes.single (wellformed : t.Wellformed) (before : ∀ rest, Closes rest → t.Before rest) :
    Lexes [t] := Lexes.cons wellformed before .nil

/-- Tokens are read in front of others that begin with a closer. -/
theorem Lexes.append (h : Lexes xs) (closes : ∀ rest, Closes rest → Closes (spell ys ++ rest))
    (h' : Lexes ys) : Lexes (xs ++ ys) := by
  intro rest hrest
  rw [spell_append, List.append_assoc, h _ (closes rest hrest), h' rest hrest, Option.map_map]
  congr 1
  funext zs
  exact (List.append_assoc xs ys zs).symm

end Lists

/-- The sign of an operator begins with a closer. -/
theorem closes_operator (op : Operator) (rest : List Char) : Closes (op.token.toList ++ rest) := by
  cases op <;> exact closes_cons (by decide) _

/-- Tokens whose text does not begin like the second character of a sign. -/
def Starts (ts : List Token) : Prop := ∃ c cs, spell ts = c :: cs ∧ (c == '>' || c == '=') = false

/-- The sign of an operator is not read differently because an operand follows it. -/
theorem Starts.before {ts : List Token} (h : Starts ts) (op : Operator) (rest : List Char) :
    (Token.operator op).Before (spell ts ++ rest) := by
  obtain ⟨c, cs, hts, hc⟩ := h
  intro d hd
  rw [hts] at hd
  cases hd
  exact hc

/-- A token that does not begin like the second character of a sign starts such tokens. -/
theorem Starts.cons {t : Token} {c : Char} {cs : List Char} (h : t.chars = c :: cs)
    (hc : (c == '>' || c == '=') = false) (ts : List Token) : Starts (t :: ts) :=
  ⟨c, cs ++ spell ts, by rw [spell_cons, h]; rfl, hc⟩

/-- No digit, and no beginning of a word, is the second character of a sign. -/
theorem not_second {c : Char} (h : Text.isDigit c ∨ isWordStart c) : (c == '>' || c == '=') = false := by
  rw [Bool.or_eq_false_iff, beq_eq_false_iff_ne, beq_eq_false_iff_ne]
  constructor <;> (rintro rfl; revert h; decide)

/-- An operand starts with none of these characters. -/
theorem Unary.starts {ts : List Token} {t : Tree} (h : Unary ts t) : Starts ts := by
  cases h with
  | negation operand => exact .cons (t := .operator .subtract) rfl (by decide) _
  | number numeral =>
    obtain ⟨d, ds, hcs, hd⟩ := IsNumeral.start numeral
    exact .cons (t := .number _) hcs (not_second (.inl hd)) _
  | text content => exact .cons (t := .text content) rfl (by decide) _
  | boolean b =>
    cases b
    · exact .cons (t := .boolean false) rfl (by decide) _
    · exact .cons (t := .boolean true) rfl (by decide) _
  | reference r =>
    obtain ⟨c, cs, hr, hc⟩ := reference_start r
    exact .cons (t := .reference r) hr (not_second (.inr hc)) _
  | parens inner => exact .cons (t := .opening) rfl (by decide) _
  | constant name =>
    obtain ⟨c, ds, hcs, hc⟩ := isName_start name
    exact .cons (t := .name _) hcs (not_second (.inr hc)) _
  | call name inner =>
    obtain ⟨c, ds, hcs, hc⟩ := isName_start name
    exact .cons (t := .name _) hcs (not_second (.inr hc)) _

/-- The tokens of a formula do not begin like the second character of a sign. -/
theorem Phrase.starts {l : Nat} {ts : List Token} {t : Tree} : Phrase l ts t → Starts ts
  | .unary operand => operand.starts
  | .binary _ left _ => by
    obtain ⟨c, cs, hxs, hc⟩ := left.starts
    exact ⟨c, _, by rw [spell_append, hxs]; rfl, hc⟩

mutual
/-- The text of a phrase is cut into its tokens. -/
theorem Phrase.lexes {l : Nat} {ts : List Token} {t : Tree} : Phrase l ts t → Lexes ts
  | .unary operand => operand.lexes
  | @Phrase.binary _ op _ _ _ _ _ left right => by
    refine left.lexes.append (fun rest _ => ?_) (.cons trivial (fun rest _ => ?_) right.lexes)
    · rw [spell_cons, List.append_assoc]
      exact closes_operator op _
    · exact right.starts.before op rest

/-- The text of an operand is cut into its tokens. -/
theorem Unary.lexes {ts : List Token} {t : Tree} : Unary ts t → Lexes ts
  | .negation operand => .cons trivial (fun rest _ => operand.starts.before .subtract rest) operand.lexes
  | .number numeral => .single numeral fun _ closes => closes
  | .text _ => .single trivial fun _ closes => closes
  | .boolean _ => .single trivial fun _ closes => closes
  | .reference _ => .single trivial fun _ closes => closes
  | .parens inner => .cons trivial (fun _ _ => trivial) <|
      inner.lexes.append (fun rest _ => closes_cons (by decide) rest) <|
      .single trivial fun _ _ => trivial
  | .constant name => .cons name (fun _ _ => rfl) <| .cons trivial (fun _ _ => trivial) <|
      .single trivial fun _ _ => trivial
  | .call name inner => .cons name (fun _ _ => rfl) <| .cons trivial (fun _ _ => trivial) <|
      inner.lexes.append (fun rest _ => closes_cons (by decide) rest) <|
      .single trivial fun _ _ => trivial

/-- The text of items is cut into their tokens. -/
theorem Items.lexes {ts : List Token} {items : List Tree} : Items ts items → Lexes ts
  | .last item => item.lexes
  | .more item rest => item.lexes.append (fun _ _ => closes_cons (by decide) _) <|
      .cons trivial (fun _ _ => trivial) rest.lexes
end

/-- The tree of formula text. -/
def read? (cs : List Char) : Option Tree := (tokens? cs).bind parse

/-- The text of a formula is cut into its tokens, and its tree is found. -/
theorem Phrase.read?_eq {ts : List Token} {t : Tree} (h : Phrase 0 ts t) :
    tokens? (spell ts) = some ts ∧ read? (spell ts) = some t := by
  have hend : Closes [] := fun c hc => by cases hc
  have htokens := h.lexes [] hend
  have hnil : tokens? [] = some [] := by
    rw [tokens?]
    rfl
  rw [List.append_nil, hnil, Option.map_some, List.append_nil] at htokens
  exact ⟨htokens, by rw [read?, htokens, Option.bind_some, h.parse_eq]⟩

end Workbook.Grammar

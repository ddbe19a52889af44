import Workbook.Formula
import Workbook.Proofs.Outcomes

/-!
# Selectors in expressions

Which selectors an expression holds, and at which paths. The formula of an expression contains the text of
each of them, so an expression with a selector that has no text has no formula. What is reported then is
the issue of one of its parts.
-/

namespace Workbook

namespace Formula

/-- An expression at a path holds a selector, which is written at a path of its own. Of the selectors that
are bound to names of a template those count that the text has places for. -/
inductive Holds : Path → Expression → Path → Selector → Prop
  | selector {path s} : Holds path (.selector s) (path.key "from") s
  | template {path text vars name s} (place : .place name s ∈ templateParts vars text.toList) :
      Holds path (.template text vars) ((path.key "vars").key name) s
  | compound {path operator items i e p s} (item : items[i]? = some e)
      (inner : Holds ((path.key "items").index i) e p s) : Holds path (.compound operator items) p s
  | negated {path e p s} (inner : Holds (path.key "item") e p s) : Holds path (.negated e) p s
  | function {path name items i e p s} (item : items[i]? = some e)
      (inner : Holds ((path.key "items").index i) e p s) : Holds path (.function name items) p s

/-! ## Formulas contain the texts of their selectors -/

section Contains

variable {cell : FormulaCell} {path : Path}

/-- A list that is joined contains its members. -/
theorem infix_intercalate {α : Type} (sep : List α) {x : List α} {xs : List (List α)} (h : x ∈ xs) :
    x <:+: sep.intercalate xs := by
  induction xs with
  | nil => cases h
  | cons y ys ih =>
    cases ys with
    | nil =>
      obtain rfl := List.mem_singleton.1 h
      exact ⟨[], [], by simp⟩
    | cons z zs =>
      rw [List.intercalate_cons_cons]
      obtain rfl | h := List.mem_cons.1 h
      · exact ⟨[], sep ++ sep.intercalate (z :: zs), by simp⟩
      · exact (ih h).trans ⟨y ++ sep, [], by simp⟩

/-- An operand contains the formula of its item. -/
theorem operands_contain {es : List Expression} {i : Nat} {parts : List String}
    (h : operands cell path i es = .ok parts) {n : Nat} {e : Expression} (he : es[n]? = some e) :
    ∃ s, ofExpression cell (path.index (i + n)) e = .ok s ∧ ∃ part ∈ parts, s.toList <:+: part.toList := by
  induction es generalizing i n parts with
  | nil => cases he
  | cons d ds ih =>
    rw [operands] at h
    obtain ⟨s, hs, h⟩ := bind_eq_ok h
    obtain ⟨rest, hrest, h⟩ := bind_eq_ok h
    cases h
    cases n with
    | zero =>
      obtain rfl : d = e := Option.some.inj he
      refine ⟨s, hs, _, List.mem_cons_self, ?_⟩
      split
      · rw [parenthesized, String.toList_append, String.toList_append]
        exact ⟨['('], [')'], rfl⟩
      · exact List.infix_refl _
    | succ n =>
      obtain ⟨t, ht, part, hpart, hinfix⟩ := ih hrest he
      have hnumber : i + (n + 1) = i + 1 + n := by omega
      rw [hnumber]
      exact ⟨t, ht, part, List.mem_cons_of_mem _ hpart, hinfix⟩

/-- An argument is the formula of its item. -/
theorem arguments_contain {es : List Expression} {i : Nat} {parts : List String}
    (h : arguments cell path i es = .ok parts) {n : Nat} {e : Expression} (he : es[n]? = some e) :
    ∃ s, ofExpression cell (path.index (i + n)) e = .ok s ∧ s ∈ parts := by
  induction es generalizing i n parts with
  | nil => cases he
  | cons d ds ih =>
    rw [arguments] at h
    obtain ⟨s, hs, h⟩ := bind_eq_ok h
    obtain ⟨rest, hrest, h⟩ := bind_eq_ok h
    cases h
    cases n with
    | zero =>
      obtain rfl : d = e := Option.some.inj he
      exact ⟨s, hs, List.mem_cons_self⟩
    | succ n =>
      obtain ⟨t, ht, hpart⟩ := ih hrest he
      have hnumber : i + (n + 1) = i + 1 + n := by omega
      rw [hnumber]
      exact ⟨t, ht, List.mem_cons_of_mem _ hpart⟩

/-- A formula contains the texts of the selectors that its expression holds. -/
theorem Holds.contains {e : Expression} {p : Path} {s : Selector} (holds : Holds path e p s) {text : String}
    (h : ofExpression cell path e = .ok text) :
    ∃ t, cell.selectorText s p = .ok t ∧ t.toList <:+: text.toList := by
  induction holds generalizing text with
  | selector =>
    rw [ofExpression] at h
    exact ⟨text, h, List.infix_refl _⟩
  | template place =>
    rw [ofExpression] at h
    obtain ⟨parts, hparts, h⟩ := bind_eq_ok h
    cases h
    obtain ⟨cs, hcs, hpart⟩ := exists_mem_of_mapM hparts place
    rw [TemplatePart.formula] at hpart
    cases ht : cell.selectorText _ _ with
    | error i =>
      rw [ht] at hpart
      cases hpart
    | ok t =>
      rw [ht] at hpart
      cases hpart
      refine ⟨t, rfl, ?_⟩
      rw [String.toList_ofList]
      exact List.infix_of_mem_flatten hcs
  | @compound path operator items i e p s item _ ih =>
    have hitems : ¬items.isEmpty := by
      rw [List.isEmpty_iff]
      rintro rfl
      cases item
    rw [ofExpression, if_neg hitems] at h
    obtain ⟨parts, hparts, h⟩ := bind_eq_ok h
    cases h
    obtain ⟨f, hf, part, hpart, hinfix⟩ := operands_contain hparts item
    rw [Nat.zero_add] at hf
    obtain ⟨t, ht, htext⟩ := ih hf
    refine ⟨t, ht, (htext.trans hinfix).trans ?_⟩
    rw [String.toList_intercalate]
    exact infix_intercalate _ (List.mem_map_of_mem hpart)
  | negated _ ih =>
    rw [ofExpression] at h
    obtain ⟨inner, hinner, h⟩ := bind_eq_ok h
    cases h
    obtain ⟨t, ht, hinfix⟩ := ih hinner
    refine ⟨t, ht, hinfix.trans ?_⟩
    rw [parenthesized, String.toList_append, String.toList_append, String.toList_append]
    exact ⟨['-', '('], [')'], rfl⟩
  | @function path name items i e p s item _ ih =>
    rw [ofExpression] at h
    obtain ⟨parts, hparts, h⟩ := bind_eq_ok h
    cases h
    obtain ⟨f, hf, hpart⟩ := arguments_contain hparts item
    rw [Nat.zero_add] at hf
    obtain ⟨t, ht, hinfix⟩ := ih hf
    refine ⟨t, ht, hinfix.trans ?_⟩
    rw [parenthesized, String.toList_append, String.toList_append, String.toList_append,
      String.toList_intercalate]
    have hjoined := infix_intercalate ",".toList (List.mem_map_of_mem (f := String.toList) hpart)
    exact hjoined.trans ⟨name.toList ++ ['('], [')'], by simp⟩

/-- An expression with a selector that has no text has no formula. -/
theorem Holds.fails {e : Expression} {p : Path} {s : Selector} (holds : Holds path e p s) {i : Issue}
    (h : cell.selectorText s p = .error i) : ∃ j, ofExpression cell path e = .error j := by
  cases hformula : ofExpression cell path e with
  | error j => exact ⟨j, rfl⟩
  | ok text =>
    obtain ⟨t, ht, _⟩ := holds.contains hformula
    cases h.symm.trans ht

end Contains

/-! ## Failing formulas -/

/-- An issue is that of a part of an expression: of a selector that it holds, of a number without a formula,
or of a compound without items. -/
def IssueOfPart (cell : FormulaCell) (path : Path) (e : Expression) (i : Issue) : Prop :=
  (∃ p s, Holds path e p s ∧ cell.selectorText s p = .error i) ∨
    (∃ x p, numberLiteral x p = .error i) ∨ ∃ operator p, i = noItems operator p

section Failing

variable {cell : FormulaCell} {path : Path} {i : Issue}

/-- A part of a template that cannot be written is a placeholder whose selector has no text. -/
theorem TemplatePart.selector_of_error {part : TemplatePart} {path : Path}
    (h : part.formula cell path = .error i) :
    ∃ name s, part = .place name s ∧ cell.selectorText s ((path.key "vars").key name) = .error i := by
  cases part with
  | char c => cases h
  | place name s =>
    refine ⟨name, s, rfl, ?_⟩
    rw [formula] at h
    cases ht : cell.selectorText s ((path.key "vars").key name) with
    | ok t =>
      rw [ht] at h
      cases h
    | error j =>
      rw [ht] at h
      cases h
      rfl

/-- The issue of a part of an item is one of a part of the whole. -/
theorem IssueOfPart.mono {path' : Path} {e e' : Expression} (h : IssueOfPart cell path e i)
    (holds : ∀ p s, Holds path e p s → Holds path' e' p s) : IssueOfPart cell path' e' i := by
  obtain ⟨p, s, hs, hi⟩ | h := h
  · exact .inl ⟨p, s, holds p s hs, hi⟩
  · exact .inr h

mutual
/-- A formula that cannot be written fails with the issue of one of its parts. -/
theorem issueOfPart_of_error (cell : FormulaCell) (path : Path) (i : Issue) :
    ∀ e : Expression, ofExpression cell path e = .error i → IssueOfPart cell path e i
  | .text s, h => by
    rw [ofExpression] at h
    cases h
  | .number x, h => by
    rw [ofExpression] at h
    exact .inr (.inl ⟨x, path, h⟩)
  | .boolean b, h => by
    rw [ofExpression] at h
    cases h
  | .compound operator items, h => by
    rw [ofExpression] at h
    split at h
    · cases h
      exact .inr (.inr ⟨operator, path, rfl⟩)
    · obtain h | ⟨_, _, h⟩ := bind_eq_error h
      · obtain ⟨n, e, he, hpart⟩ := item_of_operands_error cell (path.key "items") i items 0 h
        rw [Nat.zero_add] at hpart
        exact hpart.mono fun p s => .compound he
      · cases h
  | .negated item, h => by
    rw [ofExpression] at h
    obtain h | ⟨_, _, h⟩ := bind_eq_error h
    · exact (issueOfPart_of_error cell (path.key "item") i item h).mono fun p s => .negated
    · cases h
  | .function name items, h => by
    rw [ofExpression] at h
    obtain h | ⟨_, _, h⟩ := bind_eq_error h
    · obtain ⟨n, e, he, hpart⟩ := item_of_arguments_error cell (path.key "items") i items 0 h
      rw [Nat.zero_add] at hpart
      exact hpart.mono fun p s => .function he
    · cases h
  | .selector s, h => by
    rw [ofExpression] at h
    exact .inl ⟨_, s, .selector, h⟩
  | .template text vars, h => by
    rw [ofExpression] at h
    obtain h | ⟨_, _, h⟩ := bind_eq_error h
    · obtain ⟨before, part, after, hsplit, -, hpart⟩ := first_error_of_mapM h
      obtain ⟨name, s, rfl, hs⟩ := TemplatePart.selector_of_error hpart
      have hmem : .place name s ∈ templateParts vars text.toList := by
        rw [hsplit]
        exact List.mem_append_right before List.mem_cons_self
      exact .inl ⟨_, s, .template hmem, hs⟩
    · cases h

/-- Operands fail with an issue of a part of one of them. -/
theorem item_of_operands_error (cell : FormulaCell) (path : Path) (i : Issue) :
    ∀ (es : List Expression) (k : Nat), operands cell path k es = .error i →
      ∃ n e, es[n]? = some e ∧ IssueOfPart cell (path.index (k + n)) e i
  | [], _, h => by
    rw [operands] at h
    cases h
  | e :: es, k, h => by
    rw [operands] at h
    obtain h | ⟨_, _, h⟩ := bind_eq_error h
    · exact ⟨0, e, rfl, issueOfPart_of_error cell (path.index k) i e h⟩
    · obtain h | ⟨_, _, h⟩ := bind_eq_error h
      · obtain ⟨n, d, hd, hpart⟩ := item_of_operands_error cell path i es (k + 1) h
        refine ⟨n + 1, d, hd, ?_⟩
        rwa [Nat.add_assoc, Nat.add_comm 1 n] at hpart
      · cases h

/-- The items of a call fail with an issue of a part of one of them. -/
theorem item_of_arguments_error (cell : FormulaCell) (path : Path) (i : Issue) :
    ∀ (es : List Expression) (k : Nat), arguments cell path k es = .error i →
      ∃ n e, es[n]? = some e ∧ IssueOfPart cell (path.index (k + n)) e i
  | [], _, h => by
    rw [arguments] at h
    cases h
  | e :: es, k, h => by
    rw [arguments] at h
    obtain h | ⟨_, _, h⟩ := bind_eq_error h
    · exact ⟨0, e, rfl, issueOfPart_of_error cell (path.index k) i e h⟩
    · obtain h | ⟨_, _, h⟩ := bind_eq_error h
      · obtain ⟨n, d, hd, hpart⟩ := item_of_arguments_error cell path i es (k + 1) h
        refine ⟨n + 1, d, hd, ?_⟩
        rwa [Nat.add_assoc, Nat.add_comm 1 n] at hpart
      · cases h
end

end Failing

end Formula

end Workbook

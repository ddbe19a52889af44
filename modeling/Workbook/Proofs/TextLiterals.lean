import Workbook.Proofs.FormulaTrees

/-!
# The value of a text literal

A formula reader takes the literal of a text apart at its `&`, takes quoted characters as they are and
`CHAR` calls as the characters with their codes, and has the text again. Nothing of a text is read as a
formula: the quoted strings of a literal hold no quotes.
-/

namespace Workbook

namespace Grammar

/-- The value of a formula whose operands are quoted strings and calls of `CHAR` under `&`. -/
def Tree.textValue? : Tree → Option (List Char)
  | .text content => some content
  | .call name [.number digits] =>
    if name = "CHAR".toList then some [Char.ofNat (Text.readDecimal digits)] else none
  | .binary .concat a b => do
    let x ← a.textValue?
    let y ← b.textValue?
    return x ++ y
  | _ => none

/-- The value of a formula text. -/
def textValue? (cs : List Char) : Option (List Char) := (read? cs).bind Tree.textValue?

/-- The text of two formulas under `&` is that of both. -/
theorem Tree.textValue?_concat {a b : Tree} {x y : List Char} (ha : a.textValue? = some x)
    (hb : b.textValue? = some y) : (Tree.binary .concat a b).textValue? = some (x ++ y) := by
  rw [Tree.textValue?, ha, hb]
  rfl

end Grammar

open Grammar

namespace Formula

/-! ## Runs under `&` -/

/-- A run has the value of its characters. -/
theorem TextRun.textValue?_tree (r : TextRun) : r.tree.textValue? = some r.content := by
  cases r with
  | plain cs => rfl
  | code c =>
    have hcode : Text.readDecimal (Nat.toDigits 10 c.toNat) = c.toNat := (Text.toDigits_spells c.toNat).2
    rw [tree, codeTree, Tree.textValue?, if_pos rfl, hcode, Char.ofNat_toNat]
    rfl

/-- A text is at least one run, each of them allowed, with `&` between them. -/
structure IsChain (runs : List TextRun) (text : String) : Prop where
  nonempty : runs ≠ []
  allowed : ∀ r ∈ runs, r.Allowed
  chars : text.toList = ['&'].intercalate (runs.map TextRun.formula)

/-- The value of runs that follow others under `&`. -/
theorem textValue?_foldl {t : Tree} {x : List Char} (h : t.textValue? = some x) (runs : List TextRun) :
    ((runs.map TextRun.tree).foldl (.binary .concat) t).textValue? =
      some (x ++ runs.flatMap TextRun.content) := by
  induction runs generalizing t x with
  | nil =>
    rw [List.flatMap_nil, List.append_nil]
    exact h
  | cons r runs ih =>
    have hnext := ih (Tree.textValue?_concat h r.textValue?_tree)
    rw [List.append_assoc] at hnext
    exact hnext

/-- The value of a chain is what its runs stand for, one after the other. -/
theorem IsChain.textValue? {runs : List TextRun} {text : String} (h : IsChain runs text) :
    Grammar.textValue? text.toList = some (runs.flatMap TextRun.content) := by
  obtain ⟨ts, t, hspell, htree, hphrase, -⟩ :=
    textRuns_phrase h.nonempty h.allowed
  have hread : read? text.toList = some t := by
    rw [h.chars, hspell]
    exact hphrase.read?_eq.2
  rw [Grammar.textValue?, hread, Option.bind_some]
  cases runs with
  | nil => exact absurd rfl h.nonempty
  | cons r runs =>
    have ht : (runs.map TextRun.tree).foldl (.binary .concat) r.tree = t := Option.some.inj htree
    rw [← ht]
    exact textValue?_foldl r.textValue?_tree runs

/-! ## The literal of a text -/

/-- The literal of a text is a chain that stands for its characters. -/
theorem exists_isChain_textLiteral (s : String) :
    ∃ runs, IsChain runs (textLiteral s) ∧ runs.flatMap TextRun.content = s.toList := by
  have hallowed := allowed_textRuns s.toList
  have hcontent := content_textRuns s.toList
  rw [textLiteral]
  cases hruns : textRuns s.toList with
  | nil =>
    -- the empty text has no runs, and its literal is an empty quoted string
    rw [hruns] at hcontent
    have hempty : ∀ r ∈ [TextRun.plain []], r.Allowed := by
      intro r hr
      rw [List.mem_singleton.1 hr]
      intro c hc
      cases hc
    exact ⟨[.plain []], ⟨List.cons_ne_nil _ _, hempty, rfl⟩, hcontent⟩
  | cons r runs =>
    rw [hruns] at hallowed hcontent
    exact ⟨r :: runs, ⟨List.cons_ne_nil _ _, hallowed, String.toList_ofList⟩, hcontent⟩

/-- The literal of a text is a chain of quoted strings and `CHAR` calls. Every chain that it is stands for the
text, the reader of formulas finds the text in it, and no other text has this literal. -/
theorem textLiteral_evaluates (s : String) :
    (∃ runs, IsChain runs (textLiteral s)) ∧
    (∀ runs, IsChain runs (textLiteral s) → runs.flatMap TextRun.content = s.toList) ∧
    textValue? (textLiteral s).toList = some s.toList ∧
    ∀ s', textLiteral s' = textLiteral s → s' = s := by
  have hvalue (s : String) : textValue? (textLiteral s).toList = some s.toList := by
    obtain ⟨runs, hchain, hcontent⟩ := exists_isChain_textLiteral s
    rw [hchain.textValue?, hcontent]
  obtain ⟨runs, hchain, -⟩ := exists_isChain_textLiteral s
  refine ⟨⟨runs, hchain⟩, fun runs' hchain' => ?_, hvalue s, fun s' hsame => ?_⟩
  · have hread := hchain'.textValue?.symm.trans (hvalue s)
    exact Option.some.inj hread
  · have hread := hvalue s'
    rw [hsame, hvalue s] at hread
    exact String.toList_inj.1 (Option.some.inj hread).symm

end Formula

end Workbook

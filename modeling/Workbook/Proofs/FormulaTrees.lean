import Workbook.Proofs.Grammar.Lexing
import Workbook.Proofs.Outcomes
import Workbook.Proofs.PlainDecimals
import Workbook.Proofs.TextRuns

/-!
# Formula text keeps the structure of its expression

The text that is written for an expression is read back to the tree of that expression, in the grammar of
formulas and without knowing the expression. A compound is the left fold of its items under its operator,
however its items bind: an item that is itself a compound of several items, or a text of several runs,
stands in parentheses, and every other item is an operand of the grammar. Templates hold formula text of
their own and are left out.
-/

namespace Workbook

open Grammar

/-! ## The tree of an expression -/

namespace Formula

/-- Operands under one operator that groups to the left. -/
def chain? (op : Operator) : List Tree → Option Tree
  | [] => none
  | t :: ts => some (ts.foldl (.binary op) t)

/-- The tree of a character with one of the codes: a call of `CHAR`. -/
def codeTree (c : Char) : Tree := .call "CHAR".toList [.number (Nat.toDigits 10 c.toNat)]

/-- The tree of a part of a text: a quoted text, or a call for a character with one of the codes. -/
def partTree : List Char → Tree
  | [c] => if c.toNat ∈ codes then codeTree c else .text [c]
  | cs => .text cs

/-- The tree of a text: the parts that it falls into under `&`, or an empty quoted text. -/
def textTree (s : String) : Tree :=
  (chain? .concat ((textParts s.toList).map partTree)).getD (.text [])

/-- The tree of a number. The sign of a negative number is a minus in front of a numeral. -/
def numberTree (x : Float) : Tree :=
  match (Decimal.plainText x).toList with
  | '-' :: cs => .negation (.number cs)
  | cs => .number cs

/-- The tree of a selector: the reference that its address is for the cell of the formula. -/
def selectorTree? (cell : FormulaCell) (s : Selector) : Option Tree := do
  let address ← (s.resolve cell.vantage .root).toOption
  let reference ← address.placed? cell.column cell.row
  return .reference reference

mutual
/-- The tree of an expression. -/
def tree? (cell : FormulaCell) : Expression → Option Tree
  | .text s => some (textTree s)
  | .number x => some (numberTree x)
  | .boolean b => some (.boolean b)
  | .compound op items => (trees? cell items).bind (chain? op)
  | .negated item => (tree? cell item).map .negation
  | .function name items => (trees? cell items).map (.call name.toList)
  | .selector s => selectorTree? cell s
  | .template _ _ => none

/-- The trees of expressions. -/
def trees? (cell : FormulaCell) : List Expression → Option (List Tree)
  | [] => some []
  | e :: es => do
    let t ← tree? cell e
    let ts ← trees? cell es
    return t :: ts
end

mutual
/-- An expression without templates, whose functions have names. -/
def isPlain : Expression → Bool
  | .compound _ items => arePlain items
  | .negated item => isPlain item
  | .function name items => isName name.toList && arePlain items
  | .template _ _ => false
  | _ => true

/-- Expressions without templates. -/
def arePlain : List Expression → Bool
  | [] => true
  | e :: es => isPlain e && arePlain es
end

end Formula

/-! ## Lists of operands -/

namespace Grammar

/-- Tokens and their tree. -/
abbrev Piece := List Token × Tree

/-- The text of tokens with a token between them. -/
theorem spell_intercalate (t : Token) (tss : List (List Token)) :
    spell ([t].intercalate tss) = t.chars.intercalate (tss.map spell) := by
  induction tss with
  | nil => rfl
  | cons ts more ih =>
    cases more with
    | nil => rw [List.intercalate_singleton, List.map_singleton, List.intercalate_singleton]
    | cons us more =>
      have hsingle : spell [t] = t.chars := List.append_nil _
      rw [List.intercalate_cons_cons, spell_append, spell_append, ih, hsingle]
      simp only [List.map_cons, List.intercalate_cons_cons]

/-- The first two members are as good as one with what stands between them. -/
theorem intercalate_merge {α : Type} (sep x y : List α) (zs : List (List α)) :
    sep.intercalate (x :: y :: zs) = sep.intercalate ((x ++ sep ++ y) :: zs) := by
  cases zs with
  | nil => rw [List.intercalate_cons_cons, List.intercalate_singleton, List.intercalate_singleton]
  | cons z zs =>
    rw [List.intercalate_cons_cons, List.intercalate_cons_cons, List.intercalate_cons_cons]
    simp only [List.append_assoc]

/-- A phrase may stand where operators of a lower level may. -/
theorem Phrase.loosen {k l : Nat} {ts : List Token} {t : Tree} (h : Phrase l ts t) (hkl : k ≤ l) :
    Phrase k ts t := by
  cases h with
  | unary operand => exact .unary operand
  | binary bound left right => exact .binary (Nat.le_trans hkl bound) left right

/-- Operands under one operator group to the left. -/
theorem Phrase.chain {op : Operator} {ts : List Token} {t : Tree} (h : Phrase (level op) ts t)
    (pieces : List Piece) (unary : ∀ p ∈ pieces, Unary p.1 p.2) :
    Phrase (level op) ([.operator op].intercalate (ts :: pieces.map Prod.fst))
      ((pieces.map Prod.snd).foldl (.binary op) t) := by
  induction pieces generalizing ts t with
  | nil =>
    rw [List.map_nil, List.map_nil, List.intercalate_singleton]
    exact h
  | cons p pieces ih =>
    have hp : Unary p.1 p.2 := unary p List.mem_cons_self
    have hnext : Phrase (level op) (ts ++ [.operator op] ++ p.1) (.binary op t p.2) := by
      rw [List.append_assoc]
      exact .binary (Nat.le_refl _) h (.unary hp)
    rw [List.map_cons, List.map_cons, intercalate_merge, List.foldl_cons]
    exact ih hnext fun q hq => unary q (List.mem_cons_of_mem p hq)

/-- Operands under one operator are a formula, and a single one is an operand. -/
theorem chain_phrase (op : Operator) {pieces : List Piece} (nonempty : pieces ≠ [])
    (unary : ∀ p ∈ pieces, Unary p.1 p.2) :
    ∃ t, Formula.chain? op (pieces.map Prod.snd) = some t ∧
      Phrase 0 ([.operator op].intercalate (pieces.map Prod.fst)) t ∧
      (pieces.length ≤ 1 → Unary ([.operator op].intercalate (pieces.map Prod.fst)) t) := by
  obtain ⟨p, pieces, rfl⟩ := List.exists_cons_of_ne_nil nonempty
  have hp : Unary p.1 p.2 := unary p List.mem_cons_self
  have hphrase : Phrase (level op) p.1 p.2 := .unary hp
  have hchain := hphrase.chain pieces fun q hq => unary q (List.mem_cons_of_mem p hq)
  refine ⟨_, rfl, hchain.loosen (Nat.zero_le _), fun hone => ?_⟩
  have hnil : pieces = [] := by
    rw [List.length_cons] at hone
    exact List.length_eq_zero_iff.1 (by omega)
  subst hnil
  rw [List.map_singleton, List.intercalate_singleton]
  exact hp

/-- Formulas with commas between them are items of a call. -/
theorem items_intercalate (p : Piece) (pieces : List Piece)
    (phrases : ∀ q ∈ p :: pieces, Phrase 0 q.1 q.2) :
    Items ([.comma].intercalate ((p :: pieces).map Prod.fst)) ((p :: pieces).map Prod.snd) := by
  induction pieces generalizing p with
  | nil =>
    rw [List.map_singleton, List.intercalate_singleton]
    exact .last (phrases p List.mem_cons_self)
  | cons q pieces ih =>
    have hrest := ih q fun r hr => phrases r (List.mem_cons_of_mem p hr)
    rw [List.map_cons, List.map_cons, List.intercalate_cons_cons, List.append_assoc]
    exact .more (phrases p List.mem_cons_self) hrest

/-- A call of a function with any number of items is an operand. -/
theorem call_unary {name : List Char} (hname : isName name) (pieces : List Piece)
    (phrases : ∀ p ∈ pieces, Phrase 0 p.1 p.2) :
    ∃ ts, Unary ts (.call name (pieces.map Prod.snd)) ∧
      spell ts = name ++ '(' :: ([','].intercalate (pieces.map fun p => spell p.1) ++ [')']) := by
  cases pieces with
  | nil => exact ⟨_, .constant hname, rfl⟩
  | cons p pieces =>
    refine ⟨_, .call hname (items_intercalate p pieces phrases), ?_⟩
    have hitems := spell_intercalate .comma ((p :: pieces).map Prod.fst)
    rw [List.cons_append, List.cons_append, spell_cons, spell_cons, spell_append, hitems, List.map_map]
    rfl

end Grammar

namespace Formula

/-! ## Texts -/

/-- The tree of a run of a text. -/
def TextRun.tree : TextRun → Tree
  | .plain cs => .text cs
  | .code c => codeTree c

/-- The tree of a part is that of the run that stands for it. -/
theorem TextRun.Allowed.partTree_content {r : TextRun} (h : r.Allowed) : partTree r.content = r.tree := by
  cases r with
  | plain cs =>
    match cs with
    | [] => rfl
    | [c] => exact if_neg (h c List.mem_cons_self)
    | _ :: _ :: _ => rfl
  | code c => exact if_pos h

/-- The tree of a text is that of its runs under `&`. -/
theorem textTree_eq (s : String) :
    textTree s = (chain? .concat ((textRuns s.toList).map TextRun.tree)).getD (.text []) := by
  have hmap : (textRuns s.toList).map (partTree ∘ TextRun.content) =
      (textRuns s.toList).map TextRun.tree :=
    List.map_congr_left fun r hr => (allowed_textRuns s.toList r hr).partTree_content
  rw [textTree, textParts_eq, List.map_map, hmap]

/-- The formula of plain characters is a quoted string. -/
theorem TextRun.formula_plain (cs : List Char) : (TextRun.plain cs).formula = '"' :: cs ++ ['"'] := rfl

/-- The formula of a coded character is a call with its code. -/
theorem TextRun.formula_code (c : Char) :
    (TextRun.code c).formula = "CHAR(".toList ++ Nat.toDigits 10 c.toNat ++ [')'] := rfl

/-- The tokens and the tree of a run. -/
def TextRun.piece (r : TextRun) : Piece :=
  (match r with
    | .plain cs => [.text cs]
    | .code c => [.name "CHAR".toList, .opening, .number (Nat.toDigits 10 c.toNat), .closing],
    r.tree)

/-- A run is an operand of the grammar. -/
theorem TextRun.piece_unary (r : TextRun) : Unary r.piece.1 r.piece.2 := by
  cases r with
  | plain cs => exact .text cs
  | code c =>
    have digits : IsNumeral (Nat.toDigits 10 c.toNat) := .inl (isDigits_toDigits c.toNat)
    exact .call (by decide) (.last (.unary (.number digits)))

/-- The tokens of a run are spelled as its formula. -/
theorem TextRun.spell_piece {r : TextRun} (allowed : r.Allowed) : spell r.piece.1 = r.formula := by
  cases r with
  | plain cs =>
    have quotes : ∀ c ∈ cs, c ≠ '"' := by
      rintro c hc rfl
      exact absurd (by decide) (allowed '"' hc)
    have htext : (Token.text cs).chars = (TextRun.plain cs).formula := by
      rw [Token.chars, flatMap_doubled quotes, formula_plain]
    exact (List.append_nil (Token.text cs).chars).trans htext
  | code c =>
    have hname : "CHAR(".toList = "CHAR".toList ++ ['('] := rfl
    simp only [piece, formula_code, spell, List.flatMap_cons, List.flatMap_nil, Token.chars, hname,
      List.append_assoc, List.append_nil]

/-- Runs under `&` are a formula, and a single run is an operand. -/
theorem textRuns_phrase {runs : List TextRun} (nonempty : runs ≠ []) (allowed : ∀ r ∈ runs, r.Allowed) :
    ∃ ts t, ['&'].intercalate (runs.map TextRun.formula) = spell ts ∧
      chain? .concat (runs.map TextRun.tree) = some t ∧ Phrase 0 ts t ∧
      (runs.length ≤ 1 → Unary ts t) := by
  have hunary : ∀ p ∈ runs.map TextRun.piece, Unary p.1 p.2 := by
    intro p hp
    obtain ⟨q, -, rfl⟩ := List.mem_map.1 hp
    exact q.piece_unary
  have hne : runs.map TextRun.piece ≠ [] := fun h => nonempty (List.map_eq_nil_iff.1 h)
  obtain ⟨t, htree, hphrase, hone⟩ := chain_phrase .concat hne hunary
  have hchars : runs.map TextRun.formula = ((runs.map TextRun.piece).map Prod.fst).map spell := by
    rw [List.map_map, List.map_map]
    exact List.map_congr_left fun q hq => (TextRun.spell_piece (allowed q hq)).symm
  have htrees : runs.map TextRun.tree = (runs.map TextRun.piece).map Prod.snd := by
    rw [List.map_map]
    rfl
  refine ⟨_, t, ?_, ?_, hphrase, fun hlength => hone ?_⟩
  · rw [hchars]
    exact (spell_intercalate (.operator .concat) _).symm
  · rw [htrees, htree]
  · rwa [List.length_map]

/-- The text of a literal is that of its runs under `&`. It is an operand unless it has several runs. -/
theorem textLiteral_phrase (s : String) : ∃ ts, (textLiteral s).toList = spell ts ∧
    Phrase 0 ts (textTree s) ∧ ((textRuns s.toList).length ≤ 1 → Unary ts (textTree s)) := by
  have allowed := allowed_textRuns s.toList
  rw [textLiteral, textTree_eq]
  cases hruns : textRuns s.toList with
  | nil => exact ⟨[.text []], rfl, .unary (.text []), fun _ => .text []⟩
  | cons r runs =>
    rw [hruns] at allowed
    obtain ⟨ts, t, hspell, htree, hphrase, hone⟩ := textRuns_phrase (List.cons_ne_nil r runs) allowed
    rw [htree]
    exact ⟨ts, by rw [String.toList_ofList, hspell], hphrase, hone⟩

/-! ## Numbers -/

/-- The text of a finite number is a numeral with or without a minus. -/
theorem numberLiteral_unary {x : Float} {path : Path} {s : String} (h : numberLiteral x path = .ok s) :
    ∃ ts, s.toList = spell ts ∧ Unary ts (numberTree x) := by
  rw [numberLiteral] at h
  split at h
  · rename_i finite
    cases h
    obtain ⟨negative, body, numeral, htext⟩ := Decimal.plainText_isNumeral finite
    rw [numberTree, htext]
    cases negative with
    | true =>
      refine ⟨[.operator .subtract, .number body], ?_, .negation (.number numeral)⟩
      exact (List.append_nil ('-' :: body)).symm
    | false =>
      obtain ⟨c, cs, rfl, hc⟩ := IsNumeral.start numeral
      have hminus : c ≠ '-' := by
        rintro rfl
        revert hc
        decide
      refine ⟨[.number (c :: cs)], (List.append_nil (c :: cs)).symm, ?_⟩
      split
      · rename_i heq
        cases heq
        exact absurd rfl hminus
      · exact .number numeral
  · cases h

/-! ## Selectors -/

end Formula

/-- Whether a row is read does not depend on where it is written. -/
theorem CellUnit.toOption_parse_eq (unit : String) (path : Path) :
    (parse unit path).toOption = ofChars? unit.toList := by
  rw [parse]
  cases ofChars? unit.toList <;> rfl

/-- A row unit is read or not whatever the path. -/
theorem CellUnit.toOption_parse (unit : String) (path path' : Path) :
    (parse unit path).toOption = (parse unit path').toOption := by
  rw [toOption_parse_eq, toOption_parse_eq]

/-- The column of a selector does not depend on where the selector is written. -/
theorem Selector.toOption_resolveColumn (v : Vantage) (path path' : Path) (t : ColumnTarget) :
    (resolveColumn v path t).toOption = (resolveColumn v path' t).toOption := by
  cases t with
  | own =>
    rw [resolveColumn, resolveColumn, Vantage.ownPlacement, Vantage.ownPlacement]
    cases v.columns.get? v.key <;> rfl
  | column s =>
    rw [resolveColumn, resolveColumn, Vantage.placement, Vantage.placement]
    cases v.columns.get? (v.keyOf s) <;> rfl

/-- The rows of a selector do not depend on where the selector is written. -/
theorem Selector.toOption_resolveRows (column : CellUnit) (header : Nat) (path path' : Path)
    (t : RowTarget) :
    (resolveRows column header path t).toOption = (resolveRows column header path' t).toOption := by
  cases t with
  | own => rfl
  | all => rfl
  | units rows =>
    cases rows with
    | single u =>
      rw [resolveRows, resolveRows, toOption_bind, toOption_bind,
        CellUnit.toOption_parse u path path']
    | range a b =>
      rw [resolveRows, resolveRows, toOption_bind, toOption_bind,
        CellUnit.toOption_parse a (path.key "from") (path'.key "from")]
      congr 1
      funext first
      rw [toOption_bind, toOption_bind,
        CellUnit.toOption_parse b (path.key "to") (path'.key "to")]

/-- Where a selector leads does not depend on the path at which it would fail. -/
theorem Selector.toOption_resolve (v : Vantage) (path path' : Path) (s : Selector) :
    (s.resolve v path).toOption = (s.resolve v path').toOption := by
  cases s with
  | own => rfl
  | target cells =>
    rw [resolve, resolve, toOption_bind, toOption_bind,
      toOption_resolveColumn v path path']
    congr 1
    funext column
    rw [toOption_bind, toOption_bind, toOption_resolveRows _ _ _ (path'.key "rows")]

namespace Formula

/-- The text of a selector is that of a reference. -/
theorem selectorText_unary {cell : FormulaCell} {s : Selector} {path : Path} {text : String}
    (h : cell.selectorText s path = .ok text) :
    ∃ ts t, selectorTree? cell s = some t ∧ text.toList = spell ts ∧ Unary ts t := by
  obtain ⟨address, hresolve, hrender⟩ := FormulaCell.render_of_selectorText h
  obtain ⟨reference, hplaced, rfl⟩ := Address.placed?_of_render hrender
  have haddress : (s.resolve cell.vantage .root).toOption = some address := by
    rw [s.toOption_resolve cell.vantage .root path, hresolve]
    rfl
  refine ⟨[.reference reference], .reference reference, ?_, ?_, .reference reference⟩
  · rw [selectorTree?, haddress, Option.bind_eq_bind, Option.bind_some, hplaced]
    rfl
  · rw [String.toList_ofList]
    exact (List.append_nil _).symm

/-! ## Expressions -/

/-- A formula in parentheses has a token more at each end. -/
theorem parenthesized_chars {s : String} {ts : List Token} (h : s.toList = spell ts) :
    (parenthesized s).toList = spell (.opening :: ts ++ [.closing]) := by
  rw [parenthesized, String.toList_append, String.toList_append, h, List.cons_append, spell_cons,
    spell_append]
  rfl

/-- Texts are those of tokens that a rule of the grammar gives the trees of expressions. -/
def Written (cell : FormulaCell) (rule : List Token → Tree → Prop) (es : List Expression)
    (parts : List String) : Prop :=
  ∃ pieces : List Piece, pieces.length = es.length ∧ trees? cell es = some (pieces.map Prod.snd) ∧
    parts.map String.toList = pieces.map (fun p => spell p.1) ∧ ∀ p ∈ pieces, rule p.1 p.2

namespace Written

variable {cell : FormulaCell} {rule : List Token → Tree → Prop} {es : List Expression}
  {parts : List String}

/-- No expressions are written by no texts. -/
theorem nil : Written cell rule [] [] := ⟨[], rfl, rfl, rfl, fun p hp => by cases hp⟩

/-- One more expression is written by one more text. -/
theorem cons {e : Expression} {s : String} {ts : List Token} {t : Tree} (tree : tree? cell e = some t)
    (chars : s.toList = spell ts) (h : rule ts t) (rest : Written cell rule es parts) :
    Written cell rule (e :: es) (s :: parts) := by
  obtain ⟨pieces, hlength, htrees, hchars, hrule⟩ := rest
  refine ⟨(ts, t) :: pieces, ?_, ?_, ?_, ?_⟩
  · rw [List.length_cons, List.length_cons, hlength]
  · rw [trees?, tree, htrees]
    rfl
  · rw [List.map_cons, List.map_cons, chars, hchars]
  · intro p hp
    obtain rfl | hp := List.mem_cons.1 hp
    · exact h
    · exact hrule p hp

end Written

mutual
/-- The text of an expression is a formula whose tree is that of the expression. It is an operand unless
the expression binds loosely. -/
theorem ofExpression_phrase (cell : FormulaCell) (path : Path) : ∀ (e : Expression), isPlain e →
    ∀ s, ofExpression cell path e = .ok s → ∃ ts t, tree? cell e = some t ∧ s.toList = spell ts ∧
      Phrase 0 ts t ∧ (bindsLoosely e = false → Unary ts t)
  | .text text, _, s, h => by
    rw [ofExpression] at h
    cases h
    obtain ⟨ts, hspell, hphrase, hone⟩ := textLiteral_phrase text
    refine ⟨ts, _, rfl, hspell, hphrase, fun hbinds => hone ?_⟩
    rw [bindsLoosely, decide_eq_false_iff_not] at hbinds
    omega
  | .number x, _, s, h => by
    rw [ofExpression] at h
    obtain ⟨ts, hspell, hunary⟩ := numberLiteral_unary h
    exact ⟨ts, _, rfl, hspell, .unary hunary, fun _ => hunary⟩
  | .boolean b, _, s, h => by
    rw [ofExpression] at h
    cases h
    refine ⟨[.boolean b], _, rfl, ?_, .unary (.boolean b), fun _ => .boolean b⟩
    cases b <;> rfl
  | .compound op items, plain, s, h => by
    rw [ofExpression] at h
    split at h
    · cases h
    · rename_i hitems
      obtain ⟨parts, hparts, htext⟩ := bind_eq_ok h
      cases htext
      obtain ⟨pieces, hlength, htrees, hchars, hunary⟩ :=
        operands_written cell (path.key "items") items 0 plain parts hparts
      have hne : pieces ≠ [] := by
        rintro rfl
        rw [List.length_nil] at hlength
        exact hitems (List.isEmpty_iff.2 (List.length_eq_zero_iff.1 hlength.symm))
      obtain ⟨t, htree, hphrase, hone⟩ := chain_phrase op hne hunary
      refine ⟨_, t, ?_, ?_, hphrase, fun hbinds => hone ?_⟩
      · rw [tree?, htrees]
        exact htree
      · rw [String.toList_intercalate, hchars, spell_intercalate, List.map_map]
        rfl
      · rw [bindsLoosely, decide_eq_false_iff_not] at hbinds
        omega
  | .negated item, plain, s, h => by
    rw [ofExpression] at h
    obtain ⟨inner, hinner, htext⟩ := bind_eq_ok h
    cases htext
    obtain ⟨ts, t, htree, hspell, hphrase, -⟩ :=
      ofExpression_phrase cell (path.key "item") item plain inner hinner
    have hunary : Unary (.operator .subtract :: (.opening :: ts ++ [.closing])) (.negation t) :=
      .negation (.parens hphrase)
    refine ⟨_, _, ?_, ?_, .unary hunary, fun _ => hunary⟩
    · rw [tree?, htree]
      rfl
    · rw [String.toList_append, parenthesized_chars hspell]
      rfl
  | .function name items, plain, s, h => by
    rw [isPlain, Bool.and_eq_true] at plain
    rw [ofExpression] at h
    obtain ⟨parts, hparts, htext⟩ := bind_eq_ok h
    cases htext
    obtain ⟨pieces, -, htrees, hchars, hphrases⟩ :=
      arguments_written cell (path.key "items") items 0 plain.2 parts hparts
    obtain ⟨ts, hunary, hspell⟩ := call_unary plain.1 pieces hphrases
    refine ⟨ts, _, ?_, ?_, .unary hunary, fun _ => hunary⟩
    · rw [tree?, htrees]
      rfl
    · simp only [String.toList_append, parenthesized, String.toList_intercalate, hchars, hspell]
      rfl
  | .selector selector, _, s, h => by
    rw [ofExpression] at h
    obtain ⟨ts, t, htree, hspell, hunary⟩ := selectorText_unary h
    exact ⟨ts, t, htree, hspell, .unary hunary, fun _ => hunary⟩
  | .template _ _, plain, _, _ => by cases plain

/-- The texts of the items of a compound are operands. -/
theorem operands_written (cell : FormulaCell) (path : Path) : ∀ (es : List Expression) (i : Nat),
    arePlain es → ∀ parts, operands cell path i es = .ok parts → Written cell Unary es parts
  | [], _, _, parts, h => by
    cases h
    exact .nil
  | e :: es, i, plain, parts, h => by
    rw [arePlain, Bool.and_eq_true] at plain
    rw [operands] at h
    obtain ⟨s, hs, h⟩ := bind_eq_ok h
    obtain ⟨rest, hrest, h⟩ := bind_eq_ok h
    cases h
    obtain ⟨ts, t, htree, hspell, hphrase, hone⟩ := ofExpression_phrase cell (path.index i) e plain.1 s hs
    have hwritten := operands_written cell path es (i + 1) plain.2 rest hrest
    split
    · exact .cons htree (parenthesized_chars hspell) (.parens hphrase) hwritten
    · rename_i hbinds
      rw [Bool.not_eq_true] at hbinds
      exact .cons htree hspell (hone hbinds) hwritten

/-- The texts of the items of a call are formulas. -/
theorem arguments_written (cell : FormulaCell) (path : Path) : ∀ (es : List Expression) (i : Nat),
    arePlain es → ∀ parts, arguments cell path i es = .ok parts → Written cell (Phrase 0) es parts
  | [], _, _, parts, h => by
    cases h
    exact .nil
  | e :: es, i, plain, parts, h => by
    rw [arePlain, Bool.and_eq_true] at plain
    rw [arguments] at h
    obtain ⟨s, hs, h⟩ := bind_eq_ok h
    obtain ⟨rest, hrest, h⟩ := bind_eq_ok h
    cases h
    obtain ⟨ts, t, htree, hspell, hphrase, -⟩ := ofExpression_phrase cell (path.index i) e plain.1 s hs
    exact .cons htree hspell hphrase (arguments_written cell path es (i + 1) plain.2 rest hrest)
end

/-- The text of an expression is read back: its tokens have one tree in the grammar of formulas, the parser
finds it, and it is the tree of the expression. -/
theorem ofExpression_reads_back {cell : FormulaCell} {path : Path} {e : Expression} {s : String}
    (plain : isPlain e) (written : ofExpression cell path e = .ok s) :
    ∃ ts t, tree? cell e = some t ∧ tokens? s.toList = some ts ∧ Phrase 0 ts t ∧
      (∀ u, Phrase 0 ts u → u = t) ∧ read? s.toList = some t := by
  obtain ⟨ts, t, htree, hspell, hphrase, -⟩ := ofExpression_phrase cell path e plain s written
  obtain ⟨htokens, hread⟩ := hphrase.read?_eq
  refine ⟨ts, t, htree, ?_, hphrase, fun u hu => hu.unique hphrase, ?_⟩
  · rw [hspell, htokens]
  · rw [hspell, hread]

/-- An expression with a negative number, a text of several runs, a compound of one item, and compounds
and operands of other levels inside each other. -/
def mixedExpression : Expression :=
  .compound .multiply [
    .compound .subtract [.number (-2.5), .text "a\"b"],
    .compound .concat [.negated (.compound .power [.boolean true, .number 3])],
    .function "SUM" [.selector .own, .text "x"]]

/-- The cell of a column without neighbours. -/
def loneCell : FormulaCell := ⟨⟨{}, ⟨"page", "group", "column"⟩⟩, 1, 2⟩

/-- An expression of all kinds is written, and its text is read back to its tree alone. -/
theorem ofExpression_reads_back_mixed :
    isPlain mixedExpression ∧
    ofExpression loneCell .root mixedExpression =
      .ok "(-2.5-(\"a\"&CHAR(34)&\"b\"))*-(TRUE^3)*SUM(B3,\"x\")" ∧
    ∃ ts t, tree? loneCell mixedExpression = some t ∧
      tokens? "(-2.5-(\"a\"&CHAR(34)&\"b\"))*-(TRUE^3)*SUM(B3,\"x\")".toList = some ts ∧
      Phrase 0 ts t ∧ (∀ u, Phrase 0 ts u → u = t) ∧
      read? "(-2.5-(\"a\"&CHAR(34)&\"b\"))*-(TRUE^3)*SUM(B3,\"x\")".toList = some t := by
  have plain : isPlain mixedExpression := by decide
  have written : ofExpression loneCell .root mixedExpression =
      .ok "(-2.5-(\"a\"&CHAR(34)&\"b\"))*-(TRUE^3)*SUM(B3,\"x\")" :=
    eq_ok_of_toOption (by decide +kernel)
  exact ⟨plain, written, ofExpression_reads_back plain written⟩

end Formula

end Workbook

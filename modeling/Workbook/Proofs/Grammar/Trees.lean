import Workbook.Proofs.Grammar.Tokens

/-!
# The grammar of formulas

A unary minus binds tightest, then `^`, then `*` and `/`, then `+` and `-`, then `&`, then comparisons, and
operators of one level group to the left. Operands are numbers, quoted texts, truth values, references,
calls of functions and formulas in parentheses. Beside the rules of this grammar stands a parser that takes
the tokens one by one and keeps what is not finished on a stack. It finds the tree of every derivation, so
tokens have one tree at most.
-/

namespace Workbook.Grammar

/-! ## Rules -/

/-- The structure of a formula. -/
inductive Tree where
  | number (chars : List Char)
  | text (content : List Char)
  | boolean (b : Bool)
  | reference (r : A1.Reference)
  | negation (t : Tree)
  | binary (op : Operator) (a b : Tree)
  | call (name : List Char) (items : List Tree)

/-- How tight an operator binds. -/
def level : Operator → Nat
  | .power => 4
  | .multiply | .divide => 3
  | .add | .subtract => 2
  | .concat => 1
  | _ => 0

mutual
/-- Tokens of a formula in which operators outside parentheses bind at a level or tighter. -/
inductive Phrase : Nat → List Token → Tree → Prop
  | unary {l ts t} (unary : Unary ts t) : Phrase l ts t
  | binary {l op xs ys a b} (bound : l ≤ level op) (left : Phrase (level op) xs a)
      (right : Phrase (level op + 1) ys b) : Phrase l (xs ++ .operator op :: ys) (.binary op a b)

/-- Tokens of an operand with minus signs in front of it. -/
inductive Unary : List Token → Tree → Prop
  | negation {ts t} (operand : Unary ts t) : Unary (.operator .subtract :: ts) (.negation t)
  | number {cs} (numeral : IsNumeral cs) : Unary [.number cs] (.number cs)
  | text (content) : Unary [.text content] (.text content)
  | boolean (b) : Unary [.boolean b] (.boolean b)
  | reference (r) : Unary [.reference r] (.reference r)
  | parens {ts t} (inner : Phrase 0 ts t) : Unary (.opening :: ts ++ [.closing]) t
  | constant {n} (name : isName n) : Unary [.name n, .opening, .closing] (.call n [])
  | call {n ts items} (name : isName n) (inner : Items ts items) :
      Unary (.name n :: .opening :: ts ++ [.closing]) (.call n items)

/-- Tokens of items of a call, at least one. -/
inductive Items : List Token → List Tree → Prop
  | last {ts t} (item : Phrase 0 ts t) : Items ts [t]
  | more {ts us t items} (item : Phrase 0 ts t) (rest : Items us items) :
      Items (ts ++ .comma :: us) (t :: items)
end

/-! ## Parser -/

/-- What waits for an operand to be finished. -/
inductive Pending where
  | minus
  /-- A left operand and its operator. -/
  | left (t : Tree) (op : Operator)
  | paren
  /-- A call and its items so far. -/
  | call (name : List Char) (items : List Tree)

/-- What comes next. -/
inductive Phase where
  | operand
  /-- The opening parenthesis of a call. -/
  | opening (name : List Char)
  /-- What follows an operand. -/
  | after (t : Tree)

/-- A parser between two tokens. -/
structure Parser where
  /-- What is not finished, the innermost first. -/
  stack : List Pending
  phase : Phase

/-- An operand that is finished, with the minus signs in front of it. -/
def settle : List Pending → Tree → Parser
  | .minus :: stack, t => settle stack (.negation t)
  | stack, t => ⟨stack, .after t⟩

/-- Finish operators that bind at a level or tighter. -/
def reduce (l : Nat) : List Pending → Tree → List Pending × Tree
  | .left a op :: stack, t =>
    if l ≤ level op then reduce l stack (.binary op a t) else (.left a op :: stack, t)
  | stack, t => (stack, t)

/-- Take a token. -/
def step : Parser → Token → Option Parser
  | ⟨stack, .operand⟩, .operator .subtract => some ⟨.minus :: stack, .operand⟩
  | ⟨stack, .operand⟩, .number cs => some (settle stack (.number cs))
  | ⟨stack, .operand⟩, .text content => some (settle stack (.text content))
  | ⟨stack, .operand⟩, .boolean b => some (settle stack (.boolean b))
  | ⟨stack, .operand⟩, .reference r => some (settle stack (.reference r))
  | ⟨stack, .operand⟩, .opening => some ⟨.paren :: stack, .operand⟩
  | ⟨stack, .operand⟩, .name n => some ⟨stack, .opening n⟩
  | ⟨.call n [] :: stack, .operand⟩, .closing => some (settle stack (.call n []))
  | ⟨stack, .opening n⟩, .opening => some ⟨.call n [] :: stack, .operand⟩
  | ⟨stack, .after t⟩, .operator op =>
    some ⟨.left (reduce (level op) stack t).2 op :: (reduce (level op) stack t).1, .operand⟩
  | ⟨stack, .after t⟩, .closing =>
    match reduce 0 stack t with
    | (.paren :: stack, t) => some (settle stack t)
    | (.call n items :: stack, t) => some (settle stack (.call n (items ++ [t])))
    | _ => none
  | ⟨stack, .after t⟩, .comma =>
    match reduce 0 stack t with
    | (.call n items :: stack, t) => some ⟨.call n (items ++ [t]) :: stack, .operand⟩
    | _ => none
  | _, _ => none

/-- Take tokens one after the other. -/
def run (p : Parser) (ts : List Token) : Option Parser := ts.foldlM step p

/-- The tree of a formula that ends. -/
def Parser.tree? : Parser → Option Tree
  | ⟨stack, .after t⟩ =>
    match reduce 0 stack t with
    | ([], t) => some t
    | _ => none
  | _ => none

/-- The tree of tokens. -/
def parse (ts : List Token) : Option Tree := (run ⟨[], .operand⟩ ts).bind Parser.tree?

/-! ## Every derivation is found -/

/-- Taking tokens and then more tokens is taking all of them. -/
theorem run_append (p : Parser) (xs ys : List Token) : run p (xs ++ ys) = (run p xs).bind (run · ys) :=
  List.foldlM_append

/-- The first token is taken before the others. -/
theorem run_cons {p q : Parser} {t : Token} (h : step p t = some q) (ts : List Token) :
    run p (t :: ts) = run q ts := by
  rw [run, List.foldlM_cons, h]
  rfl

/-- What waits outside does not bind at a level or tighter, and no minus sign comes before. -/
def Outside (l : Nat) : List Pending → Prop
  | .minus :: _ => False
  | .left _ op :: _ => level op < l
  | _ => True

/-- What does not bind at a level does not bind at a tighter one. -/
theorem Outside.mono {k l : Nat} {stack : List Pending} (h : Outside k stack) (hkl : k ≤ l) :
    Outside l stack := by
  match stack, h with
  | .left _ op :: _, h => exact Nat.lt_of_lt_of_le h hkl
  | .paren :: _, _ => trivial
  | .call _ _ :: _, _ => trivial
  | [], _ => trivial

/-- Nothing is finished where nothing binds at the level. -/
theorem Outside.reduce_eq {l : Nat} {stack : List Pending} (h : Outside l stack) (t : Tree) :
    reduce l stack t = (stack, t) := by
  match stack, h with
  | .left a op :: _, h => rw [reduce, if_neg (Nat.not_le_of_lt h)]
  | .paren :: _, _ => rfl
  | .call _ _ :: _, _ => rfl
  | [], _ => rfl

/-- An operand has no minus sign in front of it where none waits. -/
theorem Outside.settle_eq {l : Nat} {stack : List Pending} (h : Outside l stack) (t : Tree) :
    settle stack t = ⟨stack, .after t⟩ := by
  match stack, h with
  | .left a op :: _, h => rfl
  | .paren :: _, _ => rfl
  | .call _ _ :: _, _ => rfl
  | [], _ => rfl

mutual
/-- The tokens of a phrase leave nothing but its operators to be finished. -/
theorem Phrase.run_eq {stack : List Pending} : ∀ {l : Nat} {ts : List Token} {t : Tree}, Phrase l ts t →
    Outside l stack → ∃ stack' t', run ⟨stack, .operand⟩ ts = some ⟨stack', .after t'⟩ ∧
      ∀ k ≤ l, reduce k stack' t' = reduce k stack t
  | _, _, t, .unary unary, outside => by
    refine ⟨stack, t, ?_, fun k _ => rfl⟩
    rw [unary.run_eq, outside.settle_eq]
  | _, _, _, @Phrase.binary l op xs ys a b bound left right, outside => by
    have outsideOp : Outside (level op) stack := outside.mono bound
    obtain ⟨stack₁, t₁, hleft, hreduce₁⟩ := left.run_eq outsideOp
    have hfinish : reduce (level op) stack₁ t₁ = (stack, a) :=
      (hreduce₁ (level op) (Nat.le_refl _)).trans (outsideOp.reduce_eq a)
    have hstep : step ⟨stack₁, .after t₁⟩ (.operator op) = some ⟨.left a op :: stack, .operand⟩ := by
      rw [step, hfinish]
    have outsideRight : Outside (level op + 1) (.left a op :: stack) := Nat.lt_succ_self _
    obtain ⟨stack₂, t₂, hright, hreduce₂⟩ := right.run_eq outsideRight
    refine ⟨stack₂, t₂, ?_, fun k hk => ?_⟩
    · rw [run_append, hleft, Option.bind_some, run_cons hstep, hright]
    · have hop : k ≤ level op := Nat.le_trans hk bound
      rw [hreduce₂ k (Nat.le_succ_of_le hop), reduce, if_pos hop]

/-- The tokens of an operand finish it and the minus signs that wait for it. -/
theorem Unary.run_eq {stack : List Pending} : ∀ {ts : List Token} {t : Tree}, Unary ts t →
    run ⟨stack, .operand⟩ ts = some (settle stack t)
  | _, _, .negation operand => by rw [run_cons rfl, operand.run_eq, settle]
  | _, _, .number _ => run_cons rfl []
  | _, _, .text _ => run_cons rfl []
  | _, _, .boolean _ => run_cons rfl []
  | _, _, .reference _ => run_cons rfl []
  | _, _, @Unary.parens ts t inner => by
    have outside : Outside 0 (.paren :: stack) := trivial
    obtain ⟨stack', t', hinner, hreduce⟩ := inner.run_eq outside
    have hfinish : reduce 0 stack' t' = (.paren :: stack, t) :=
      (hreduce 0 (Nat.le_refl 0)).trans (outside.reduce_eq t)
    have hclose : step ⟨stack', .after t'⟩ .closing = some (settle stack t) := by
      rw [step, hfinish]
    rw [List.cons_append, run_cons rfl, run_append, hinner, Option.bind_some, run_cons hclose]
    rfl
  | _, _, @Unary.constant n _ => by
    have hopen : step ⟨stack, .opening n⟩ .opening = some ⟨.call n [] :: stack, .operand⟩ := rfl
    rw [run_cons rfl, run_cons hopen]
    exact run_cons rfl []
  | _, _, @Unary.call n ts items _ inner => by
    have hopen : step ⟨stack, .opening n⟩ .opening = some ⟨.call n [] :: stack, .operand⟩ := rfl
    rw [List.cons_append, List.cons_append, run_cons rfl, run_cons hopen, inner.run_eq, List.nil_append]

/-- The tokens of items and a closing parenthesis finish the call that they belong to. -/
theorem Items.run_eq {stack : List Pending} {n : List Char} {done : List Tree} :
    ∀ {ts : List Token} {items : List Tree}, Items ts items →
      run ⟨.call n done :: stack, .operand⟩ (ts ++ [.closing]) =
        some (settle stack (.call n (done ++ items)))
  | _, _, @Items.last ts t item => by
    have outside : Outside 0 (.call n done :: stack) := trivial
    obtain ⟨stack', t', hitem, hreduce⟩ := item.run_eq outside
    have hfinish : reduce 0 stack' t' = (.call n done :: stack, t) :=
      (hreduce 0 (Nat.le_refl 0)).trans (outside.reduce_eq t)
    have hclose : step ⟨stack', .after t'⟩ .closing = some (settle stack (.call n (done ++ [t]))) := by
      rw [step, hfinish]
    rw [run_append, hitem, Option.bind_some, run_cons hclose]
    rfl
  | _, _, @Items.more ts us t items item rest => by
    have outside : Outside 0 (.call n done :: stack) := trivial
    obtain ⟨stack', t', hitem, hreduce⟩ := item.run_eq outside
    have hfinish : reduce 0 stack' t' = (.call n done :: stack, t) :=
      (hreduce 0 (Nat.le_refl 0)).trans (outside.reduce_eq t)
    have hcomma : step ⟨stack', .after t'⟩ .comma =
        some ⟨.call n (done ++ [t]) :: stack, .operand⟩ := by
      rw [step, hfinish]
    rw [List.append_assoc, run_append, hitem, Option.bind_some, List.cons_append, run_cons hcomma,
      rest.run_eq, List.append_assoc, List.singleton_append]
end

/-- The parser finds the tree of every derivation. -/
theorem Phrase.parse_eq {ts : List Token} {t : Tree} (h : Phrase 0 ts t) : parse ts = some t := by
  have outside : Outside 0 [] := trivial
  obtain ⟨stack, t', hrun, hreduce⟩ := h.run_eq outside
  have hfinish : reduce 0 stack t' = ([], t) :=
    (hreduce 0 (Nat.le_refl 0)).trans (outside.reduce_eq t)
  rw [parse, hrun, Option.bind_some, Parser.tree?, hfinish]

/-- Tokens have one tree at most. -/
theorem Phrase.unique {ts : List Token} {t u : Tree} (h : Phrase 0 ts t) (h' : Phrase 0 ts u) : t = u :=
  Option.some.inj (h.parse_eq.symm.trans h'.parse_eq)

example : parse [.number ['8'], .operator .subtract, .number ['4'], .operator .subtract, .number ['2']] =
    some (.binary .subtract (.binary .subtract (.number ['8']) (.number ['4'])) (.number ['2'])) := rfl

example : parse [.operator .subtract, .number ['2'], .operator .power, .number ['2']] =
    some (.binary .power (.negation (.number ['2'])) (.number ['2'])) := rfl

end Workbook.Grammar

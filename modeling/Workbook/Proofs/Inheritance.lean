import Workbook.Proofs.FlatWalk
import Workbook.Proofs.Reports

/-!
# Themes that come back to themselves

The themes that an expansion meets stand on lines: from a reference to the theme it stands for, then along
one of the `inherits` entries of that theme, and so on. A line comes back when it ends in a definition that
it has met before. The expansion reports each line where it first comes back, at the path of that line, and
it reports no other line. So a theme that is reached twice on different lines, an entry that is repeated,
and themes that look alike are never taken for a circle. Lines that have not come back are bounded in
length, whatever the definitions are.
-/

namespace Workbook

namespace Scope

/-- The theme that a reference stands for, and where it is written. -/
def themeOf? (s : Scope) : Ref Theme → Option (Found Theme)
  | .inline t => some ⟨t, .inline⟩
  | .named name => (s.resolve .theme name).toOption

variable {s : Scope} {name : String}

/-- A name that leads to a theme stands for it. -/
theorem themeOf?_of_value {site : Site} {origin : String} {t : Theme}
    (h : s.themes.walk [] name = .value site origin t) :
    s.themeOf? (.named name) = some ⟨t, .definition site origin⟩ := by
  have hr : s.resolve .theme name = .ok ⟨t, .definition site origin⟩ := Layers.resolve_of_value h
  rw [themeOf?, hr]
  rfl

/-- A name that leads into a circle stands for no theme. -/
theorem themeOf?_of_circular {names : List String} (h : s.themes.walk [] name = .circular names) :
    s.themeOf? (.named name) = none := by
  have hr : s.resolve .theme name = .error (.circular names) := Layers.resolve_of_circular h
  rw [themeOf?, hr]
  rfl

/-- A name that leads nowhere stands for no theme. -/
theorem themeOf?_of_missing {names : List String} {last : String}
    (h : s.themes.walk [] name = .missing names last) : s.themeOf? (.named name) = none := by
  have hr : s.resolve .theme name = .error (.unknown names last) := Layers.resolve_of_missing h
  rw [themeOf?, hr]
  rfl

end Scope

namespace Cascade

/-! ## Lines of themes -/

/-- The themes met from a reference along `inherits` entries of given numbers, and the reference to the
last of these themes. -/
inductive Line (s : Scope) : Ref Theme → List Nat → List (Found Theme) → Ref Theme → Prop
  | here {t m} (found : s.themeOf? t = some m) : Line s t [] [m] t
  | into {t m i r entries themes last} (found : s.themeOf? t = some m)
      (entry : m.value.inherits[i]? = some r) (rest : Line s r entries themes last) :
      Line s t (i :: entries) (m :: themes) last

/-- A definition that has been met. A theme that is written in place is another one each time. -/
def Again (met : List Origin) : Origin → Prop
  | .definition site name => .definition site name ∈ met
  | _ => False

/-- The last of some origins is a definition that has been met before. -/
def ComesBack (met origins : List Origin) : Prop :=
  ∃ before o, origins = before ++ [o] ∧ Again (met ++ before) o

/-- None of some origins, the last one left out, is a definition that has been met before. -/
def Fresh (met origins : List Origin) : Prop :=
  ∀ before o after, origins = before ++ o :: after → after ≠ [] → ¬Again (met ++ before) o

section Origins

variable {met origins : List Origin} {o : Origin}

/-- A single definition comes back if it has been met. -/
theorem comesBack_singleton : ComesBack met [o] ↔ Again met o := by
  constructor
  · rintro ⟨before, p, heq, h⟩
    obtain ⟨rfl, rfl⟩ : before = [] ∧ p = o := by
      cases before with
      | nil => exact ⟨rfl, by simpa using heq.symm⟩
      | cons _ rest => simp at heq
    rwa [List.append_nil] at h
  · intro h
    exact ⟨[], o, rfl, by rwa [List.append_nil]⟩

/-- Definitions come back if those after the first do, once the first has been met. -/
theorem comesBack_cons (hne : origins ≠ []) :
    ComesBack met (o :: origins) ↔ ComesBack (met ++ [o]) origins := by
  constructor
  · rintro ⟨before, p, heq, h⟩
    cases before with
    | nil =>
      simp only [List.nil_append, List.cons.injEq] at heq
      exact absurd heq.2 hne
    | cons q before =>
      simp only [List.cons_append, List.cons.injEq] at heq
      obtain ⟨rfl, heq⟩ := heq
      exact ⟨before, p, heq, by rwa [List.append_assoc, List.singleton_append]⟩
  · rintro ⟨before, p, rfl, h⟩
    refine ⟨o :: before, p, rfl, ?_⟩
    rwa [List.append_assoc, List.singleton_append] at h

/-- Only the last definition may have been met, so a single one is fresh. -/
theorem fresh_singleton : Fresh met [o] := by
  intro before p after heq hne
  cases before with
  | nil =>
    simp only [List.nil_append, List.cons.injEq] at heq
    exact absurd heq.2.symm hne
  | cons _ rest => simp at heq

/-- Definitions are fresh if the first is, and the others once it has been met. -/
theorem fresh_cons (hne : origins ≠ []) :
    Fresh met (o :: origins) ↔ ¬Again met o ∧ Fresh (met ++ [o]) origins := by
  constructor
  · intro h
    constructor
    · have ho := h [] o origins rfl hne
      rwa [List.append_nil] at ho
    · intro before p after heq hafter
      have hp := h (o :: before) p after (by rw [heq]; rfl) hafter
      rwa [List.append_assoc, List.singleton_append]
  · rintro ⟨ho, h⟩ before p after heq hafter
    cases before with
    | nil =>
      simp only [List.nil_append, List.cons.injEq] at heq
      rw [List.append_nil, ← heq.1]
      exact ho
    | cons q before =>
      simp only [List.cons_append, List.cons.injEq] at heq
      obtain ⟨rfl, heq⟩ := heq
      have hp := h before p after heq hafter
      rwa [List.append_assoc, List.singleton_append] at hp

end Origins

namespace Line

variable {s : Scope} {t last : Ref Theme} {entries : List Nat} {themes : List (Found Theme)}

/-- A line has a theme. -/
theorem origins_ne_nil (line : Line s t entries themes last) : themes.map Found.origin ≠ [] := by
  cases line <;> simp

/-- A line goes on from the theme of its reference. -/
theorem cons_inv {i : Nat} (line : Line s t (i :: entries) themes last) {m : Found Theme}
    (found : s.themeOf? t = some m) : ∃ r rest, m.value.inherits[i]? = some r ∧ themes = m :: rest ∧
      Line s r entries rest last := by
  cases line with
  | into found' entry rest =>
    rw [found, Option.some.injEq] at found'
    subst found'
    exact ⟨_, _, entry, rfl, rest⟩

/-- A line that comes back does so by a name. -/
theorem last_named {met : List Origin} (line : Line s t entries themes last)
    (back : ComesBack met (themes.map Found.origin)) : ∃ name, last = .named name := by
  induction line generalizing met with
  | @here t m found =>
    cases t with
    | named name => exact ⟨name, rfl⟩
    | inline value =>
      cases found
      rw [List.map_cons, List.map_nil, comesBack_singleton] at back
      exact back.elim
  | into found entry rest ih =>
    rw [List.map_cons, comesBack_cons rest.origins_ne_nil] at back
    exact ih back

/-- A line that comes back has an initial part that does so for the first time. -/
theorem first_return {met : List Origin} (line : Line s t entries themes last)
    (back : ComesBack met (themes.map Found.origin)) :
    ∃ entries themes last, Line s t entries themes last ∧ Fresh met (themes.map Found.origin) ∧
      ComesBack met (themes.map Found.origin) := by
  induction line generalizing met with
  | here found => exact ⟨_, _, _, .here found, fresh_singleton, back⟩
  | @into t m i r entries themes last found entry rest ih =>
    by_cases again : Again met m.origin
    · exact ⟨_, _, _, .here found, fresh_singleton, comesBack_singleton.2 again⟩
    · rw [List.map_cons, comesBack_cons rest.origins_ne_nil] at back
      obtain ⟨entries', themes', last', rest', fresh', back'⟩ := ih back
      refine ⟨_, _, _, .into found entry rest', ?_, ?_⟩
      · rw [List.map_cons, fresh_cons rest'.origins_ne_nil]
        exact ⟨again, fresh'⟩
      · rw [List.map_cons, comesBack_cons rest'.origins_ne_nil]
        exact back'

end Line

end Cascade

/-! ## Issues of circles -/

/-- The path of the theme at the end of a line, from the path of its first reference. -/
def Path.inherited (p : Path) : List Nat → Path
  | [] => p
  | i :: entries => ((p.key "inherits").index i).inherited entries

/-- The issue is about a circle of themes. -/
def Issue.OfCircle (i : Issue) : Prop := "circular theme inheritance".toList <+: i.message.toList

/-- An issue of some work that is about a circle of themes. -/
def Outcome.Circle {α : Type} (o : Outcome α) (i : Issue) : Prop := i ∈ o.issues ∧ i.OfCircle

/-- The issue about a circle of themes is one of circles. -/
theorem Cascade.circular_ofCircle (path : Path) (name : String) (depth : Nat) :
    (circular path name depth).OfCircle := by
  refine ⟨": theme '".toList ++ (Ref.textOf name).toList ++ "' inherits from itself".toList, ?_⟩
  simp only [circular, Issue.processing, Issue.about, String.toList_append]
  rw [← List.append_assoc, ← List.append_assoc, ← String.toList_append]
  rfl

/-- The wording of a name that is not defined begins with its first word. -/
theorem NameFault.unknown_prefix (kind : String) (names : List String) (last : String) :
    "unknown ".toList <+: ((NameFault.unknown names last).message kind).toList := by
  have hmessage : (NameFault.unknown names last).message kind =
      "unknown " ++ kind ++ " '" ++ Ref.textOf last ++ "'" ++
        (if 1 < names.length then " (via " ++ chainText names ++ ")" else "") := rfl
  rw [hmessage]
  simp only [String.toList_append, List.append_assoc]
  exact List.prefix_append _ _

/-- The wording of a circle of names says of what kind they are. -/
theorem NameFault.circular_prefix (kind : String) (names : List String) :
    ("circular " ++ kind ++ " reference").toList <+:
      ((NameFault.circular names).message kind).toList := by
  have hmessage : (NameFault.circular names).message kind =
      "circular " ++ kind ++ " reference: " ++ chainText names := rfl
  have hcolon : " reference: ".toList = " reference".toList ++ ": ".toList := rfl
  refine ⟨": ".toList ++ (chainText names).toList, ?_⟩
  rw [hmessage]
  simp only [String.toList_append, hcolon, List.append_assoc]

/-- A name without a value is never a circle of themes. -/
theorem Issue.NameFaultUnder.not_ofCircle {path : Path} {i : Issue} (h : i.NameFaultUnder path) :
    ¬i.OfCircle := by
  obtain ⟨below, kind, fault, rfl⟩ := h
  intro circle
  cases fault with
  | unknown names last =>
    have both := List.prefix_or_prefix_of_prefix circle (NameFault.unknown_prefix kind.label names last)
    revert both
    decide
  | circular names =>
    have both := List.prefix_or_prefix_of_prefix circle (NameFault.circular_prefix kind.label names)
    revert both
    cases kind <;> decide

namespace Outcome

variable {α β : Type} {i : Issue}

/-- Work reports the circles of its first part and of what comes after it. -/
theorem circle_bind {a : Outcome α} {f : α → Outcome β} :
    (a >>= f).Circle i ↔ a.Circle i ∨ (f a.value).Circle i := by
  rw [Circle, issues_bind, List.mem_append, or_and_right]
  rfl

/-- A value reports no circle. -/
theorem not_circle_pure (a : α) : ¬(pure a : Outcome α).Circle i := fun h => by cases h.1

/-- An entry of the journal reports no circle. -/
theorem not_circle_record (e : Entry) : ¬(record e).Circle i := fun h => by cases h.1

/-- The report of a circle is the one circle that it reports. -/
theorem circle_circular {path : Path} {name : String} {depth : Nat} :
    (report (Cascade.circular path name depth)).Circle i ↔ i = Cascade.circular path name depth := by
  constructor
  · intro h
    exact List.mem_singleton.1 h.1
  · rintro rfl
    exact ⟨List.mem_singleton_self _, Cascade.circular_ofCircle _ _ _⟩

/-- Issues about names are no circles of themes. -/
theorem Naming.not_circle {o : Outcome α} {path : Path} (h : o.Naming path) : ¬o.Circle i :=
  fun hi => (h i hi.1).not_ofCircle hi.2

end Outcome

namespace Cascade

/-- The issue of a line that comes back for the first time, while the themes of a chain are being
expanded. -/
def Reported (s : Scope) (chain : List Origin) (path : Path) (t : Ref Theme) (i : Issue) : Prop :=
  ∃ entries themes name, Line s t entries themes (.named name) ∧ Fresh chain (themes.map Found.origin) ∧
    ComesBack chain (themes.map Found.origin) ∧
    i = circular (path.inherited entries) name (chain.length + entries.length)

namespace Reported

variable {s : Scope} {chain : List Origin} {path : Path} {t : Ref Theme} {i : Issue} {m : Found Theme}

/-- No line starts at a reference without a theme. -/
theorem of_none (missing : s.themeOf? t = none) : ¬Reported s chain path t i := by
  rintro ⟨entries, themes, name, line, -⟩
  cases line with
  | here found => rw [missing] at found; cases found
  | into found entry rest => rw [missing] at found; cases found

/-- At a theme that is being expanded, the line that ends there is reported and none that goes on. -/
theorem of_again {name : String} (found : s.themeOf? (.named name) = some m)
    (again : Again chain m.origin) :
    Reported s chain path (.named name) i ↔ i = Cascade.circular path name chain.length := by
  constructor
  · rintro ⟨entries, themes, last, line, fresh, back, rfl⟩
    cases line with
    | here found' => rfl
    | into found' entry rest =>
      rw [found, Option.some.injEq] at found'
      subst found'
      rw [List.map_cons, fresh_cons rest.origins_ne_nil] at fresh
      exact absurd again fresh.1
  · rintro rfl
    exact ⟨[], [m], name, .here found, fresh_singleton, comesBack_singleton.2 again, rfl⟩

/-- From a theme that is not being expanded, the lines through its entries are reported. -/
theorem of_fresh (found : s.themeOf? t = some m) (fresh : ¬Again chain m.origin) :
    Reported s chain path t i ↔ ∃ k r, m.value.inherits[k]? = some r ∧
      Reported s (chain ++ [m.origin]) ((path.key "inherits").index k) r i := by
  constructor
  · rintro ⟨entries, themes, name, line, lineFresh, back, rfl⟩
    cases entries with
    | nil =>
      cases line with
      | here found' =>
        rw [found, Option.some.injEq] at found'
        subst found'
        exact absurd (comesBack_singleton.1 back) fresh
    | cons k entries =>
      obtain ⟨r, rest, entry, rfl, onward⟩ := line.cons_inv found
      rw [List.map_cons, fresh_cons onward.origins_ne_nil] at lineFresh
      rw [List.map_cons, comesBack_cons onward.origins_ne_nil] at back
      refine ⟨k, r, entry, entries, rest, name, onward, lineFresh.2, back, ?_⟩
      have depth : chain.length + (k :: entries).length =
          (chain ++ [m.origin]).length + entries.length := by
        simp only [List.length_cons, List.length_append, List.length_nil]
        omega
      rw [depth, Path.inherited]
  · rintro ⟨k, r, entry, entries, rest, name, onward, lineFresh, back, rfl⟩
    refine ⟨k :: entries, m :: rest, name, .into found entry onward, ?_, ?_, ?_⟩
    · rw [List.map_cons, fresh_cons onward.origins_ne_nil]
      exact ⟨fresh, lineFresh⟩
    · rw [List.map_cons, comesBack_cons onward.origins_ne_nil]
      exact back
    · have depth : (chain ++ [m.origin]).length + entries.length =
          chain.length + (k :: entries).length := by
        simp only [List.length_cons, List.length_append, List.length_nil]
        omega
      rw [depth, Path.inherited]

end Reported

/-- An entry of a longer list is its first one or an entry of the rest. -/
theorem exists_getElem?_cons {α : Type} {p : Nat → α → Prop} {a : α} {as : List α} :
    (∃ k r, (a :: as)[k]? = some r ∧ p k r) ↔ p 0 a ∨ ∃ k r, as[k]? = some r ∧ p (k + 1) r := by
  constructor
  · rintro ⟨k, r, entry, h⟩
    cases k with
    | zero =>
      rw [List.getElem?_cons_zero, Option.some.injEq] at entry
      exact .inl (entry ▸ h)
    | succ k => exact .inr ⟨k, r, by rwa [List.getElem?_cons_succ] at entry, h⟩
  · rintro (h | ⟨k, r, entry, h⟩)
    · exact ⟨0, a, rfl, h⟩
    · exact ⟨k + 1, r, by rwa [List.getElem?_cons_succ], h⟩

/-- The own fields of a theme and what is laid over them report no circle. -/
theorem not_circle_own {s : Scope} {path : Path} {t : Theme} {base : SheetTheme} {i : Issue} :
    ¬(do let own ← s.ownTheme path t; return base.overlay own : Outcome SheetTheme).Circle i := by
  rw [Outcome.circle_bind, not_or]
  exact ⟨(s.ownTheme_naming path t).not_circle, Outcome.not_circle_pure _⟩

/-- A reference without a theme is no circle. -/
theorem not_circle_fault {path : Path} {fault : NameFault} {i : Issue} :
    ¬(do Outcome.report (fault.issue Kind.theme.label path); return {} : Outcome SheetTheme).Circle i := by
  rw [Outcome.circle_bind, not_or]
  have naming : (Outcome.report (fault.issue Kind.theme.label path)).Naming path :=
    .report (.here .theme path fault)
  exact ⟨naming.not_circle, Outcome.not_circle_pure _⟩

/-- The circles that an expansion reports are those of the lines that first come back. -/
theorem expand_circle (s : Scope) (chain : List Origin) (ancestors : Outcome SheetTheme) (path : Path)
    (t : Ref Theme) (quiet : ∀ i, ¬ancestors.Circle i) (i : Issue) :
    (expand s chain ancestors path t).Circle i ↔ Reported s chain path t i := by
  revert quiet
  refine expand.induct s
    (fun chain ancestors path t => (∀ i, ¬ancestors.Circle i) →
      ((expand s chain ancestors path t).Circle i ↔ Reported s chain path t i))
    (fun chain path k base ts => (inherited s chain path k base ts).Circle i ↔
      ∃ j r, ts[j]? = some r ∧ Reported s chain (path.index (k + j)) r i)
    ?inline ?named ?nil ?cons chain ancestors path t
  case inline =>
    intro chain ancestors path t ih quiet
    rw [expand, Outcome.circle_bind, or_iff_right (quiet i), Outcome.circle_bind,
      or_iff_left not_circle_own, ih, Reported.of_fresh (m := ⟨t, .inline⟩) rfl id]
    simp only [Nat.zero_add]
  case named =>
    intro chain ancestors path name ih quiet
    rw [expand, Outcome.circle_bind, or_iff_right (Outcome.not_circle_record _)]
    split
    · rename_i site origin t walk
      have found := Scope.themeOf?_of_value walk
      split
      · rename_i again
        rw [Outcome.circle_bind, or_iff_left (Outcome.not_circle_pure _), Outcome.circle_circular,
          Reported.of_again found again]
      · rename_i fresh
        rw [Outcome.circle_bind, or_iff_right (quiet i), Outcome.circle_bind, or_iff_left not_circle_own,
          ih site origin t walk fresh, Reported.of_fresh found fresh]
        simp only [Nat.zero_add]
    · rename_i names walk
      exact iff_of_false not_circle_fault (Reported.of_none (Scope.themeOf?_of_circular walk))
    · rename_i names last walk
      exact iff_of_false not_circle_fault (Reported.of_none (Scope.themeOf?_of_missing walk))
  case nil =>
    intro chain path k base
    rw [inherited]
    refine iff_of_false (Outcome.not_circle_pure _) ?_
    rintro ⟨j, r, entry, -⟩
    cases entry
  case cons =>
    intro chain path k base t ts iht ihts
    rw [inherited, Outcome.circle_bind, iht fun _ => Outcome.not_circle_pure _, ihts,
      exists_getElem?_cons]
    simp only [Nat.add_zero, Nat.add_assoc, Nat.add_comm 1]

/-- The lines from a theme that is not being expanded are longer by one than those from its entries. -/
theorem bounded_of_entries {s : Scope} {chain : List Origin} {t : Ref Theme} {m : Found Theme}
    (found : s.themeOf? t = some m) {bound : Nat}
    (h : ∀ r ∈ m.value.inherits, ∀ entries themes last, Line s r entries themes last →
      Fresh (chain ++ [m.origin]) (themes.map Found.origin) → themes.length ≤ bound)
    {entries : List Nat} {themes : List (Found Theme)} {last : Ref Theme}
    (line : Line s t entries themes last) (fresh : Fresh chain (themes.map Found.origin)) :
    themes.length ≤ bound + 1 := by
  cases entries with
  | nil =>
    cases line
    exact Nat.le_add_left 1 bound
  | cons k entries =>
    obtain ⟨r, rest, entry, rfl, onward⟩ := line.cons_inv found
    rw [List.map_cons, fresh_cons onward.origins_ne_nil] at fresh
    have shorter := h r (List.mem_of_getElem? entry) entries rest last onward fresh.2
    rw [List.length_cons]
    omega

/-- Lines that have not come back are bounded in length, also those that meet definitions in a circle. -/
theorem exists_bound (s : Scope) (chain : List Origin) (t : Ref Theme) :
    ∃ bound, ∀ entries themes last, Line s t entries themes last →
      Fresh chain (themes.map Found.origin) → themes.length ≤ bound := by
  -- The recursion of the expansion is the one that the bound needs; its outcome plays no part.
  refine expand.induct s
    (fun chain _ _ t => ∃ bound, ∀ entries themes last, Line s t entries themes last →
      Fresh chain (themes.map Found.origin) → themes.length ≤ bound)
    (fun chain _ _ _ ts => ∃ bound, ∀ r ∈ ts, ∀ entries themes last, Line s r entries themes last →
      Fresh chain (themes.map Found.origin) → themes.length ≤ bound)
    ?inline ?named ?nil ?cons chain (return {}) .root t
  case inline =>
    intro chain _ _ t ih
    obtain ⟨bound, h⟩ := ih {}
    exact ⟨bound + 1, fun _ _ _ => bounded_of_entries (m := ⟨t, .inline⟩) rfl h⟩
  case named =>
    intro chain _ _ name ih
    cases walk : s.themes.walk [] name with
    | value site origin t =>
      have found := Scope.themeOf?_of_value walk
      by_cases fresh : Origin.definition site origin ∈ chain
      · refine ⟨1, fun entries themes last line h => ?_⟩
        cases entries with
        | nil =>
          cases line
          exact Nat.le_refl 1
        | cons k entries =>
          obtain ⟨r, rest, entry, rfl, onward⟩ := line.cons_inv found
          rw [List.map_cons, fresh_cons onward.origins_ne_nil] at h
          exact absurd fresh h.1
      · obtain ⟨bound, h⟩ := ih site origin t walk fresh {}
        exact ⟨bound + 1, fun _ _ _ => bounded_of_entries found h⟩
    | circular names =>
      refine ⟨0, fun entries themes last line => ?_⟩
      cases line <;> simp_all [Scope.themeOf?_of_circular walk]
    | missing names missed =>
      refine ⟨0, fun entries themes last line => ?_⟩
      cases line <;> simp_all [Scope.themeOf?_of_missing walk]
  case nil =>
    intro chain _ _ _
    exact ⟨0, fun r hr => by cases hr⟩
  case cons =>
    intro chain _ _ _ t ts iht ihts
    obtain ⟨first, hfirst⟩ := iht
    obtain ⟨others, hothers⟩ := ihts {}
    refine ⟨max first others, fun r hr entries themes last line fresh => ?_⟩
    obtain rfl | hr := List.mem_cons.1 hr
    · exact Nat.le_trans (hfirst entries themes last line fresh) (Nat.le_max_left _ _)
    · exact Nat.le_trans (hothers r hr entries themes last line fresh) (Nat.le_max_right _ _)

/-- The expansion of a theme reports a circle exactly when some line from the theme comes back to a
definition on it. The reports are those of the lines that come back for the first time, each at the path
of its last entry. All lines that the expansion follows are bounded in length. -/
theorem resolve_circular_iff_comesBack (s : Scope) (path : Path) (t : Ref Theme) :
    ((∃ i ∈ (resolve s path t).issues, i.OfCircle) ↔
      ∃ entries themes last, Line s t entries themes last ∧ ComesBack [] (themes.map Found.origin)) ∧
    (∀ i, i ∈ (resolve s path t).issues ∧ i.OfCircle ↔
      ∃ entries themes name, Line s t entries themes (.named name) ∧
        Fresh [] (themes.map Found.origin) ∧ ComesBack [] (themes.map Found.origin) ∧
        i = circular (path.inherited entries) name entries.length) ∧
    (∃ bound, ∀ entries themes last, Line s t entries themes last →
      Fresh [] (themes.map Found.origin) → themes.length ≤ bound) := by
  have circles (i : Issue) : (resolve s path t).Circle i ↔ Reported s [] path t i :=
    expand_circle s [] (return {}) path t (fun _ => Outcome.not_circle_pure _) i
  have reported (i : Issue) : Reported s [] path t i ↔
      ∃ entries themes name, Line s t entries themes (.named name) ∧
        Fresh [] (themes.map Found.origin) ∧ ComesBack [] (themes.map Found.origin) ∧
        i = circular (path.inherited entries) name entries.length := by
    simp only [Reported, List.length_nil, Nat.zero_add]
  refine ⟨⟨?_, ?_⟩, fun i => (circles i).trans (reported i), exists_bound s [] t⟩
  · rintro ⟨i, hi, circle⟩
    obtain ⟨entries, themes, name, line, -, back, -⟩ := (circles i).1 ⟨hi, circle⟩
    exact ⟨entries, themes, .named name, line, back⟩
  · rintro ⟨entries, themes, last, line, back⟩
    obtain ⟨entries, themes, last, line, fresh, back⟩ := line.first_return back
    obtain ⟨name, rfl⟩ := line.last_named back
    have hi := (circles _).2 ((reported _).2 ⟨entries, themes, name, line, fresh, back, rfl⟩)
    exact ⟨_, hi.1, hi.2⟩

end Cascade

end Workbook

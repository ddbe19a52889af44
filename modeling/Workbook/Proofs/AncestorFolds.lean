import Workbook.Compilation
import Workbook.Proofs.Inheritance

/-!
# Ancestors folded inside and outside

The ancestors of a theme can be folded while the theme is resolved, or each theme is resolved by itself
and the results are laid over each other, as the levels of a book do. A theme with a value makes no
difference between the two, in value and issues. A theme without a value does: by itself it adds nothing
to what is around it, while its resolution over ancestors gives the ancestors up, with their issues.
-/

namespace Workbook

/-! ## Overlays -/

namespace SheetStyle

theorem empty_overlay (s : SheetStyle) : overlay {} s = s := by
  simp only [overlay, Option.or_none]

theorem overlay_assoc (s t u : SheetStyle) : (s.overlay t).overlay u = s.overlay (t.overlay u) := by
  simp only [overlay, Option.or_assoc]

end SheetStyle

namespace SheetTheme

theorem overlay_empty (t : SheetTheme) : t.overlay {} = t := rfl

theorem empty_overlay (t : SheetTheme) : overlay {} t = t := by
  simp only [overlay, Option.or_none, SheetStyle.empty_overlay]

theorem overlay_assoc (t u v : SheetTheme) : (t.overlay u).overlay v = t.overlay (u.overlay v) := by
  simp only [overlay, Option.or_assoc, SheetStyle.overlay_assoc]

/-- Sheet themes laid over each other in order. -/
def stack (themes : List SheetTheme) : SheetTheme := themes.foldl overlay {}

/-- The last of some themes lies over the stack of those before it. -/
theorem stack_append (themes : List SheetTheme) (last : SheetTheme) :
    stack (themes ++ [last]) = (stack themes).overlay last :=
  List.foldl_append

end SheetTheme

namespace Cascade

variable {s : Scope} {chain : List Origin} {path : Path} {t : Ref Theme} {m : Found Theme}

/-! ## What lies under a theme -/

/-- What inherited themes are laid over stays under them. -/
theorem value_inherited (s : Scope) (chain : List Origin) (path : Path) (i : Nat) (base : SheetTheme)
    (ts : List (Ref Theme)) :
    (inherited s chain path i base ts).value = base.overlay (inherited s chain path i {} ts).value := by
  induction ts generalizing i base with
  | nil => simp only [inherited, Outcome.value_pure, SheetTheme.overlay_empty]
  | cons t ts ih =>
    simp only [inherited, Outcome.value_bind]
    rw [ih, ih (i + 1) (SheetTheme.overlay {} _), SheetTheme.overlay_assoc, SheetTheme.empty_overlay]

/-- Inherited themes report the same over anything. -/
theorem issues_inherited (s : Scope) (chain : List Origin) (path : Path) (i : Nat) (base : SheetTheme)
    (ts : List (Ref Theme)) :
    (inherited s chain path i base ts).issues = (inherited s chain path i {} ts).issues := by
  induction ts generalizing i base with
  | nil => simp only [inherited, Outcome.issues_pure]
  | cons t ts ih =>
    simp only [inherited, Outcome.issues_bind]
    rw [ih, ih (i + 1) (SheetTheme.overlay {} _)]

/-- A theme that is written in place: its ancestors, its inherited themes, and its own fields. -/
theorem expand_inline (s : Scope) (chain : List Origin) (ancestors : Outcome SheetTheme) (path : Path)
    (t : Theme) :
    (expand s chain ancestors path (.inline t)).value =
      (inherited s (chain ++ [.inline]) (path.key "inherits") 0 ancestors.value t.inherits).value.overlay
        (s.ownTheme path t).value ∧
    (expand s chain ancestors path (.inline t)).issues =
      ancestors.issues ++ ((inherited s (chain ++ [.inline]) (path.key "inherits") 0 {} t.inherits).issues
        ++ (s.ownTheme path t).issues) := by
  rw [← issues_inherited _ _ _ _ ancestors.value]
  constructor
  · simp only [expand, Outcome.value_bind, Outcome.value_pure]
  · simp only [expand, Outcome.issues_bind, Outcome.issues_pure, List.append_nil]

/-- A theme that is met for the first time: its ancestors, its inherited themes, and its own fields. -/
theorem expand_of_fresh (found : s.themeOf? t = some m) (fresh : ¬Again chain m.origin)
    (ancestors : Outcome SheetTheme) (path : Path) :
    (expand s chain ancestors path t).value =
      (inherited s (chain ++ [m.origin]) (path.key "inherits") 0 ancestors.value m.value.inherits).value.overlay
        (s.ownTheme path m.value).value ∧
    (expand s chain ancestors path t).issues =
      ancestors.issues ++ ((inherited s (chain ++ [m.origin]) (path.key "inherits") 0 {} m.value.inherits).issues
        ++ (s.ownTheme path m.value).issues) := by
  cases t with
  | inline t =>
    obtain rfl := Option.some.inj found
    exact expand_inline s chain ancestors path t
  | named name =>
    rw [← issues_inherited _ _ _ _ ancestors.value, expand]
    split
    · rename_i site origin t walk
      rw [Scope.themeOf?_of_value walk, Option.some.injEq] at found
      subst found
      have unseen : Origin.definition site origin ∉ chain := fresh
      rw [dif_neg unseen]
      constructor
      · simp only [Outcome.value_bind, Outcome.value_pure]
      · rw [Outcome.issues_bind, Outcome.issues_record, List.nil_append]
        simp only [Outcome.issues_bind, Outcome.issues_pure, List.append_nil]
    · rename_i names walk
      rw [Scope.themeOf?_of_circular walk] at found
      cases found
    · rename_i names last walk
      rw [Scope.themeOf?_of_missing walk] at found
      cases found

/-- The ancestors of a theme that is met for the first time lie under it, and their issues come first. -/
theorem expand_over (found : s.themeOf? t = some m) (fresh : ¬Again chain m.origin)
    (ancestors : Outcome SheetTheme) (path : Path) :
    (expand s chain ancestors path t).value =
      ancestors.value.overlay (expand s chain (return {}) path t).value ∧
    (expand s chain ancestors path t).issues =
      ancestors.issues ++ (expand s chain (return {}) path t).issues := by
  obtain ⟨value, issues⟩ := expand_of_fresh found fresh ancestors path
  obtain ⟨aloneValue, aloneIssues⟩ := expand_of_fresh found fresh (return {}) path
  rw [Outcome.value_pure] at aloneValue
  rw [Outcome.issues_pure, List.nil_append] at aloneIssues
  constructor
  · rw [value, aloneValue, value_inherited, SheetTheme.overlay_assoc]
  · rw [issues, aloneIssues]

/-- A theme without a value leaves nothing, whatever its ancestors are. -/
theorem expand_of_missing (missing : s.themeOf? t = none) (chain : List Origin)
    (ancestors : Outcome SheetTheme) (path : Path) :
    expand s chain ancestors path t = expand s chain (return {}) path t ∧
      (expand s chain ancestors path t).value = {} := by
  cases t with
  | inline t => cases missing
  | named name =>
    simp only [expand]
    split
    · rename_i site origin t walk
      rw [Scope.themeOf?_of_value walk] at missing
      cases missing
    · exact ⟨rfl, rfl⟩
    · exact ⟨rfl, rfl⟩

/-! ## Ancestors -/

/-- A fold overlays the values of its themes in their order. -/
theorem value_fold (s : Scope) (path : Path) (base : SheetTheme) (ts : List (Ref Theme)) :
    (fold s path base ts).value = (ts.map fun t => (resolve s path t).value).foldl SheetTheme.overlay base := by
  induction ts generalizing base with
  | nil => rfl
  | cons t ts ih => simp only [fold, Outcome.value_bind, List.map_cons, List.foldl_cons, ih]

/-- A fold reports what its themes report, in their order. -/
theorem issues_fold (s : Scope) (path : Path) (base : SheetTheme) (ts : List (Ref Theme)) :
    (fold s path base ts).issues = ts.flatMap fun t => (resolve s path t).issues := by
  induction ts generalizing base with
  | nil => rfl
  | cons t ts ih => simp only [fold, Outcome.issues_bind, List.flatMap_cons, ih]

/-- Themes each resolved by itself and laid over each other. -/
def folded (s : Scope) (path : Path) (ts : List (Ref Theme)) : SheetTheme :=
  .stack (ts.map fun t => (resolve s path t).value)

/-- The last theme of a fold lies over what the themes before it have left. -/
theorem folded_append (s : Scope) (path : Path) (ts : List (Ref Theme)) (t : Ref Theme) :
    folded s path (ts ++ [t]) = (folded s path ts).overlay (resolve s path t).value := by
  rw [folded, List.map_append, List.map_singleton, SheetTheme.stack_append]
  rfl

/-- A fold from nothing leaves what its themes are folded to. -/
theorem value_fold_empty (s : Scope) (path : Path) (ts : List (Ref Theme)) :
    (fold s path {} ts).value = folded s path ts :=
  value_fold s path {} ts

/-- No theme is being expanded when a theme is resolved. -/
theorem not_again_nil (o : Origin) : ¬Again [] o := by
  cases o with
  | definition site name => exact List.not_mem_nil
  | standard | inline => exact id

/-- Over its ancestors, a theme with a value makes what the fold makes. -/
theorem value_resolveOver (found : s.themeOf? t = some m) (ancestors : List (Ref Theme)) (path : Path) :
    (resolveOver s ancestors path t).value = folded s path (ancestors ++ [t]) := by
  rw [folded_append, resolveOver, (expand_over found (not_again_nil _) _ path).1, value_fold_empty, resolve]

/-- Over its ancestors, a theme with a value has the issues of the fold. -/
theorem issues_resolveOver (found : s.themeOf? t = some m) (ancestors : List (Ref Theme)) (path : Path) :
    (resolveOver s ancestors path t).issues =
      (ancestors ++ [t]).flatMap fun a => (resolve s path a).issues := by
  rw [resolveOver, (expand_over found (not_again_nil _) _ path).2, issues_fold, List.flatMap_append,
    List.flatMap_singleton, resolve]

/-- The levels of a book fold themes from the outside. -/
theorem foldl_levelTheme (s : Scope) (path : Path) (ts : List (Ref Theme)) :
    ts.foldl (fun around t => (Compile.levelTheme around s path (some t)).value) {} =
      folded s (path.key "theme") ts := by
  rw [folded, SheetTheme.stack, List.foldl_map]
  rfl

/-- A theme with a value is the same over its ancestors, with the same issues, as all of them folded from
the outside, which is what the levels of a book do. A theme without a value loses its ancestors and their
issues, while the fold keeps them. So the two agree exactly for a theme with a value and for ancestors
that define nothing. -/
theorem resolveOver_eq_folded_iff (s : Scope) (ancestors : List (Ref Theme)) (path : Path) (t : Ref Theme) :
    ((resolveOver s ancestors path t).value =
      if (s.themeOf? t).isSome then folded s path (ancestors ++ [t]) else {}) ∧
    ((resolveOver s ancestors path t).issues =
      if (s.themeOf? t).isSome then (ancestors ++ [t]).flatMap fun a => (resolve s path a).issues
      else (resolve s path t).issues) ∧
    ((s.themeOf? t).isSome ∨ folded s path (ancestors ++ [t]) = folded s path ancestors) ∧
    ((resolveOver s ancestors path t).value = folded s path (ancestors ++ [t]) ↔
      (s.themeOf? t).isSome ∨ folded s path ancestors = {}) ∧
    ∀ level : Path, (ancestors ++ [t]).foldl
      (fun around a => (Compile.levelTheme around s level (some a)).value) {} =
        folded s (level.key "theme") (ancestors ++ [t]) := by
  cases found : s.themeOf? t with
  | some m =>
    have value := value_resolveOver found ancestors path
    simp only [Option.isSome_some, ↓reduceIte]
    exact ⟨value, issues_resolveOver found ancestors path, .inl trivial, iff_of_true value (.inl trivial),
      fun level => foldl_levelTheme s level _⟩
  | none =>
    obtain ⟨same, value⟩ := expand_of_missing found [] (fold s path {} ancestors) path
    have alone : (resolve s path t).value = {} := (expand_of_missing found [] (return {}) path).2
    have kept : folded s path (ancestors ++ [t]) = folded s path ancestors := by
      rw [folded_append, alone, SheetTheme.overlay_empty]
    simp only [Option.isSome_none, Bool.false_eq_true, ↓reduceIte, false_or]
    refine ⟨value, congrArg Outcome.issues same, kept, ?_, fun level => foldl_levelTheme s level _⟩
    rw [resolveOver, value, kept]
    exact eq_comm

/-- A name without a value takes the color of its ancestor away, which the fold keeps. -/
theorem resolveOver_ghost_ne_folded :
    let s : Scope := .root none {}
    let ancestor : Ref Theme := .inline { tab := some (.inline ⟨17, 17, 17⟩) }
    (resolveOver s [ancestor] .root (.named "ghost")).value = {} ∧
      folded s .root [ancestor, .named "ghost"] = { tab := some ⟨17, 17, 17⟩ } := by
  intro s ancestor
  have missing : s.themeOf? (.named "ghost") = none := Scope.themeOf?_of_missing (by cbv)
  have ghost : (resolve s .root (.named "ghost")).value = {} :=
    (expand_of_missing missing [] (return {}) .root).2
  have tab : (resolve s .root ancestor).value = { tab := some ⟨17, 17, 17⟩ } := by
    simp only [resolve, ancestor, expand, inherited]
    rfl
  refine ⟨(expand_of_missing missing [] _ _).2, ?_⟩
  rw [folded, List.map_cons, List.map_singleton, tab, ghost]
  rfl

end Cascade

end Workbook

import Workbook.Issue
import Workbook.Reference

/-!
# Layered definitions

Definitions of one kind, level upon level. A name is looked up from the innermost level outward, and an
alias sends the search back to the innermost level. The search has no memory, so it always gives the same
answer; it ends because every alias it follows is a definition that it has not met before.
-/

namespace Workbook

/-- Where a level stands: the numbers that lead to it from the root. -/
abbrev Site := List Nat

/-- The definitions of one level. -/
structure Layer (α : Type) where
  site : Site
  entries : List (String × Ref α)

/-- Definitions level upon level, the innermost first. -/
abbrev Layers (α : Type) := List (Layer α)

/-- Where a value is written. -/
inductive Origin where
  /-- In the definition of a name at a level. -/
  | definition (site : Site) (name : String)
  /-- In the standard library under a name. -/
  | standard (name : String)
  /-- At the place where it is used. -/
  | inline
deriving DecidableEq, Repr

/-- A value and where it is written. -/
structure Found (α : Type) where
  value : α
  origin : Origin

/-- The end of a search for a name. -/
inductive Landing (α : Type) where
  /-- A definition with a value. -/
  | value (site : Site) (name : String) (value : α)
  /-- A name that no level defines, with the names followed up to it. -/
  | missing (chain : List String) (name : String)
  /-- A name that has been followed before, with the names followed up to it. -/
  | circular (chain : List String)

/-- Why a name has no value. -/
inductive NameFault where
  /-- The last name of the chain is not defined. -/
  | unknown (chain : List String) (name : String)
  /-- The last name of the chain is an earlier one. -/
  | circular (chain : List String)
deriving DecidableEq, Repr

/-- A chain of names as messages show it. -/
def chainText (chain : List String) : String := " -> ".intercalate (chain.map Ref.textOf)

namespace NameFault

/-- The wording of a name without a value, for definitions of a kind. -/
def message (kind : String) : NameFault → String
  | .unknown chain name =>
    "unknown " ++ kind ++ " '" ++ Ref.textOf name ++ "'" ++
      (if 1 < chain.length then " (via " ++ chainText chain ++ ")" else "")
  | .circular chain => "circular " ++ kind ++ " reference: " ++ chainText chain

/-- The issue of a name without a value. A circular chain is kept as data. -/
def issue (kind : String) (path : Path) (fault : NameFault) : Issue :=
  let issue := Issue.processing (fault.message kind) path
  match fault with
  | .unknown _ _ => issue
  | .circular chain => { issue with data := some (.object [("chain", .list (chain.map .text))]) }

end NameFault

namespace Layers

variable {α : Type}

/-- The site of the innermost level that defines anything. -/
def site : Layers α → Site
  | [] => []
  | layer :: _ => layer.site

/-- A level on top of others. A level without definitions adds nothing. -/
def overlay (site : Site) (entries : List (String × Ref α)) (layers : Layers α) : Layers α :=
  if entries.isEmpty then layers else ⟨site, entries⟩ :: layers

/-- The innermost definition of a name, and where it stands. -/
def find? (name : String) : Layers α → Option (Site × Ref α)
  | [] => none
  | layer :: outer =>
    match layer.entries.lookup name with
    | some entry => some (layer.site, entry)
    | none => find? name outer

/-- The defined names. -/
def names (layers : Layers α) : List String := layers.flatMap fun layer => layer.entries.map (·.1)

/-- The definitions by site and name. -/
def places (layers : Layers α) : List (Site × String) :=
  layers.flatMap fun layer => layer.entries.map fun (name, _) => (layer.site, name)

/-- A name that is looked up with success is defined at the site that is found. -/
theorem mem_places_of_find? {name : String} {site : Site} {entry : Ref α} :
    ∀ {layers : Layers α}, find? name layers = some (site, entry) → (site, name) ∈ layers.places
  | [], h => by simp [find?] at h
  | layer :: outer, h => by
    simp only [find?] at h
    split at h
    · rename_i e he
      simp only [Option.some.injEq, Prod.mk.injEq] at h
      obtain ⟨l₁, l₂, hl, _⟩ := List.lookup_eq_some_iff.1 he
      simp only [places, List.flatMap_cons, List.mem_append, List.mem_map]
      refine .inl ⟨(name, e), ?_, by simp [h.1]⟩
      simp [hl]
    · simp only [places, List.flatMap_cons, List.mem_append]
      exact .inr (mem_places_of_find? h)

/-- A place has a defined name. -/
theorem mem_names_of_mem_places {layers : Layers α} {site : Site} {name : String}
    (h : (site, name) ∈ layers.places) : name ∈ layers.names := by
  simp only [places, List.mem_flatMap, List.mem_map] at h
  obtain ⟨layer, hl, entry, he, heq⟩ := h
  simp only [names, List.mem_flatMap, List.mem_map]
  exact ⟨layer, hl, entry, he, by simp only [Prod.mk.injEq] at heq; exact heq.2⟩

/-- Marking one more member of a list leaves fewer unmarked ones. -/
theorem filter_lt_of_mem {β : Type} [DecidableEq β] {xs : List β} {chain : List β} {x : β}
    (hx : x ∈ xs) (hc : x ∉ chain) :
    (xs.filter fun y => decide (y ∉ chain ++ [x])).length <
      (xs.filter fun y => decide (y ∉ chain)).length := by
  have hsub : (xs.filter fun y => decide (y ∉ chain ++ [x])) =
      (xs.filter fun y => decide (y ∉ chain)).filter fun y => decide (y ≠ x) := by
    rw [List.filter_filter]
    congr 1
    funext y
    by_cases h1 : y ∈ chain <;> by_cases h2 : y = x <;> simp [h1, h2]
  rw [hsub]
  apply Nat.lt_of_le_of_ne (List.length_filter_le _ _)
  intro heq
  have := List.length_filter_eq_length_iff.1 heq x (by simp [hx, hc])
  simp at this

/-- Follow a name, after a chain of names that have led to it. -/
def walk (layers : Layers α) (chain : List String) (name : String) : Landing α :=
  if _seen : name ∈ chain then .circular (chain ++ [name])
  else match _found : layers.find? name with
    | none => .missing (chain ++ [name]) name
    | some (site, .inline value) => .value site name value
    | some (_, .named next) => walk layers (chain ++ [name]) next
termination_by (layers.names.filter fun n => decide (n ∉ chain)).length
decreasing_by exact filter_lt_of_mem (mem_names_of_mem_places (mem_places_of_find? _found)) _seen

/-- A value that is found is written in a definition of the layers. -/
theorem mem_places_of_walk {layers : Layers α} {chain : List String} {start name : String} {site : Site}
    {value : α} (h : layers.walk chain start = .value site name value) :
    (site, name) ∈ layers.places := by
  fun_induction walk layers chain start with
  | case1 => simp at h
  | case2 => simp at h
  | case3 chain start seen s v found =>
    simp only [Landing.value.injEq] at h
    rw [← h.1, ← h.2.1]
    exact mem_places_of_find? found
  | case4 chain start seen s next found ih => exact ih h

/-- The value of a name, or why it has none. What no level defines may be in a standard library. -/
def resolve (standard : String → Option α) (layers : Layers α) (name : String) :
    Except NameFault (Found α) :=
  match layers.walk [] name with
  | .value site name value => .ok ⟨value, .definition site name⟩
  | .circular chain => .error (.circular chain)
  | .missing chain name =>
    match standard name with
    | some value => .ok ⟨value, .standard name⟩
    | none => .error (.unknown chain name)

end Layers

end Workbook

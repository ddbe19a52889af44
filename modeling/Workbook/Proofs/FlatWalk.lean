import Workbook.Layers

/-!
# Layers as one list of definitions

Layered definitions are the same as one list in which inner definitions stand before outer ones. Following
a name through the layers, and sending every alias back to the innermost one, gives what following it in
that list gives: the same value, or the same fault with the same chain. The standard libraries are asked
in their order, and only for a name that the list does not define.
-/

namespace Workbook

variable {α : Type}

/-- The definitions of all layers in one list, inner ones first. -/
def Layers.union (layers : Layers α) : List (String × Ref α) := layers.flatMap Layer.entries

/-- Follow a name in one list of definitions after a chain of names that have led to it. What the list
does not define is asked of some libraries in order. -/
def follow (libraries : List (String → Option α)) (definitions : List (String × Ref α))
    (chain : List String) (name : String) : Except NameFault α :=
  if _seen : name ∈ chain then .error (.circular (chain ++ [name]))
  else match _found : definitions.lookup name with
    | some (.inline value) => .ok value
    | some (.named next) => follow libraries definitions (chain ++ [name]) next
    | none =>
      match libraries.findSome? fun library => library name with
      | some value => .ok value
      | none => .error (.unknown (chain ++ [name]) name)
termination_by ((definitions.map Prod.fst).filter fun n => decide (n ∉ chain)).length
decreasing_by
  obtain ⟨before, after, he, _⟩ := List.lookup_eq_some_iff.1 _found
  exact Layers.filter_lt_of_mem (by simp [he]) _seen

section Steps

variable {libraries : List (String → Option α)} {definitions : List (String × Ref α)}
  {chain : List String} {name : String}

/-- A definition with a value ends the search. -/
theorem follow_inline (fresh : name ∉ chain) {value : α}
    (h : definitions.lookup name = some (.inline value)) :
    follow libraries definitions chain name = .ok value := by
  rw [follow, dif_neg fresh]
  split <;> rename_i found <;> rw [h] at found <;> cases found
  rfl

/-- An alias goes on to the name it stands for. -/
theorem follow_named (fresh : name ∉ chain) {next : String}
    (h : definitions.lookup name = some (.named next)) :
    follow libraries definitions chain name = follow libraries definitions (chain ++ [name]) next := by
  rw [follow, dif_neg fresh]
  split <;> rename_i found <;> rw [h] at found <;> cases found
  rfl

/-- What a landing answers, with the help of libraries for a name that is missing. -/
def Landing.answer (libraries : List (String → Option α)) : Landing α → Except NameFault α
  | .value _ _ v => .ok v
  | .circular chain => .error (.circular chain)
  | .missing chain last =>
    match libraries.findSome? fun library => library last with
    | some v => .ok v
    | none => .error (.unknown chain last)

/-- A name without a definition is left to the libraries. -/
theorem follow_missing (fresh : name ∉ chain) (h : definitions.lookup name = none) :
    follow libraries definitions chain name =
      Landing.answer libraries (.missing (chain ++ [name]) name) := by
  rw [follow, dif_neg fresh]
  split <;> rename_i found <;> rw [h] at found <;> cases found
  rfl

end Steps

namespace Layers

/-- A name is found in the layers as it is found in their union. -/
theorem find?_eq_lookup (name : String) (layers : Layers α) :
    (layers.find? name).map Prod.snd = layers.union.lookup name := by
  induction layers with
  | nil => rfl
  | cons layer outer ih =>
    rw [find?, union, List.flatMap_cons, List.lookup_append]
    cases h : layer.entries.lookup name with
    | some entry => rfl
    | none => exact ih

/-- Definitions on top of others stand before them in the union. -/
theorem union_overlay (site : Site) (entries : List (String × Ref α)) (layers : Layers α) :
    (layers.overlay site entries).union = entries ++ layers.union := by
  unfold overlay
  split
  · rename_i hempty
    rw [List.isEmpty_iff.1 hempty, List.nil_append]
  · rfl

/-- A layer on top of others hides none of the names below it. -/
theorem find?_overlay_eq_none {site : Site} {entries : List (String × Ref α)} {layers : Layers α}
    {name : String} (h : (layers.overlay site entries).find? name = none) : layers.find? name = none := by
  have hu : (layers.overlay site entries).union.lookup name = none := by
    rw [← find?_eq_lookup, h, Option.map_none]
  rw [union_overlay, List.lookup_append, Option.or_eq_none_iff, ← find?_eq_lookup,
    Option.map_eq_none_iff] at hu
  exact hu.2

/-- The last name of a chain that ends in nothing is not defined. -/
theorem find?_of_walk_missing {layers : Layers α} {chain names : List String} {start last : String}
    (h : layers.walk chain start = .missing names last) : layers.find? last = none := by
  fun_induction walk layers chain start with
  | case1 => cases h
  | case2 chain start fresh found =>
    cases h
    exact found
  | case3 => cases h
  | case4 chain start fresh site next found ih => exact ih h

section WalkSteps

variable {layers : Layers α} {chain : List String} {name : String} {site : Site}

/-- A definition with a value ends the walk. -/
theorem walk_inline (fresh : name ∉ chain) {value : α}
    (h : layers.find? name = some (site, .inline value)) :
    layers.walk chain name = .value site name value := by
  rw [walk, dif_neg fresh]
  split <;> rename_i found <;> rw [h] at found <;> cases found
  rfl

/-- An alias sends the walk on to the name it stands for. -/
theorem walk_named (fresh : name ∉ chain) {next : String}
    (h : layers.find? name = some (site, .named next)) :
    layers.walk chain name = layers.walk (chain ++ [name]) next := by
  rw [walk, dif_neg fresh]
  split <;> rename_i found <;> rw [h] at found <;> cases found
  rfl

/-- A name that is not defined leads nowhere. -/
theorem walk_missing (fresh : name ∉ chain) (h : layers.find? name = none) :
    layers.walk chain name = .missing (chain ++ [name]) name := by
  rw [walk, dif_neg fresh]
  split <;> rename_i found <;> rw [h] at found <;> cases found

end WalkSteps

section Resolve

variable {library : String → Option α} {layers : Layers α} {name : String}

/-- A walk that ends in a value gives it, and where it is written. -/
theorem resolve_of_value {site : Site} {origin : String} {value : α}
    (h : layers.walk [] name = .value site origin value) :
    layers.resolve library name = .ok ⟨value, .definition site origin⟩ := by
  rw [resolve, h]

/-- A walk that runs into a circle gives its names. -/
theorem resolve_of_circular {chain : List String} (h : layers.walk [] name = .circular chain) :
    layers.resolve library name = .error (.circular chain) := by
  rw [resolve, h]

/-- A walk that ends in a missing name asks the library for it. -/
theorem resolve_of_missing {chain : List String} {last : String}
    (h : layers.walk [] name = .missing chain last) :
    layers.resolve library name =
      match library last with
      | some value => .ok ⟨value, .standard last⟩
      | none => .error (.unknown chain last) := by
  cases answer : library last with
  | some value => simp only [resolve, h, answer]
  | none => simp only [resolve, h, answer]

end Resolve

/-- Following a name in the union ends as the walk through the layers does. -/
theorem follow_union (libraries : List (String → Option α)) (layers : Layers α) (chain : List String)
    (name : String) :
    follow libraries layers.union chain name = Landing.answer libraries (layers.walk chain name) := by
  fun_induction walk layers chain name with
  | case1 chain name seen => rw [follow, dif_pos seen, Landing.answer]
  | case2 chain name fresh found =>
    refine follow_missing fresh ?_
    rw [← find?_eq_lookup, found, Option.map_none]
  | case3 chain name fresh site value found =>
    refine follow_inline fresh ?_
    rw [← find?_eq_lookup, found, Option.map_some]
  | case4 chain name fresh site next found ih =>
    rw [← ih]
    refine follow_named fresh ?_
    rw [← find?_eq_lookup, found, Option.map_some]

/-- The value of a name in the layers is the value that following it in their union gives. -/
theorem resolve_eq_follow (libraries : List (String → Option α)) (layers : Layers α) (name : String) :
    (layers.resolve (fun n => libraries.findSome? fun library => library n) name).map Found.value =
      follow libraries layers.union [] name := by
  rw [follow_union, resolve]
  cases layers.walk [] name with
  | value site origin value => rfl
  | circular chain => rfl
  | missing chain last =>
    dsimp only [Landing.answer]
    cases libraries.findSome? fun library => library last <;> rfl

end Layers

end Workbook

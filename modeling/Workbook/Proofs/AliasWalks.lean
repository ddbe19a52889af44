import Mathlib.Data.List.Chain
import Workbook.Proofs.Registries

/-!
# Where aliases lead

A name that is an alias leads to one other name, so the names that are met from a name on are determined by
the definitions. They come to an end, at a value or at a name that nobody defines, or they are aliases for
ever. A search tells these apart: its answer says which of them is the case, and its chain is the way it has
gone. When the aliases have no end the chain runs into itself, and then every name on it leads back to it.
-/

namespace Workbook

variable {α : Type}

namespace Layers

/-! ## Aliases -/

/-- A name is defined as an alias of another. -/
def Alias (layers : Layers α) (a b : String) : Prop := ∃ site, layers.find? a = some (site, .named b)

/-- Aliases that are followed from a name, some or none, lead to another. -/
abbrev Leads (layers : Layers α) : String → String → Prop := Relation.ReflTransGen layers.Alias

/-- A name has a value without following an alias: its innermost definition, or else that of a library. -/
inductive Has (library : String → Option α) (layers : Layers α) (name : String) : Found α → Prop
  | defined {site : Site} {value : α} (h : layers.find? name = some (site, .inline value)) :
    Has library layers name ⟨value, .definition site name⟩
  | standard {value : α} (h : layers.find? name = none) (known : library name = some value) :
    Has library layers name ⟨value, .standard name⟩

/-- Neither a level nor a library defines a name. -/
def Undefined (library : String → Option α) (layers : Layers α) (name : String) : Prop :=
  layers.find? name = none ∧ library name = none

/-- Aliases lead from a name to one that no level defines and a library does. -/
def FallsBack (library : String → Option α) (layers : Layers α) (name last : String) : Prop :=
  layers.Leads name last ∧ layers.find? last = none ∧ (library last).isSome

/-- Names of which each is an alias of the next, the first one given. -/
structure ChainFrom (layers : Layers α) (name : String) (chain : List String) : Prop where
  starts : chain.head? = some name
  aliases : chain.IsChain layers.Alias

variable {library : String → Option α} {layers : Layers α} {start name last : String} {chain : List String}

/-- An alias has one target. -/
theorem Alias.unique {a b c : String} (hb : layers.Alias a b) (hc : layers.Alias a c) : b = c := by
  obtain ⟨site, hb⟩ := hb
  obtain ⟨other, hc⟩ := hc
  cases hb.symm.trans hc
  rfl

/-- A name with a value is no alias. -/
theorem not_alias_of_value {site : Site} {value : α} (h : layers.find? name = some (site, .inline value))
    (next : String) : ¬layers.Alias name next := by
  rintro ⟨other, halias⟩
  cases h.symm.trans halias

/-- A name without a definition is no alias. -/
theorem not_alias_of_none (h : layers.find? name = none) (next : String) : ¬layers.Alias name next := by
  rintro ⟨site, halias⟩
  cases h.symm.trans halias

/-- A name that has a value, of its own or from a library, is no alias. -/
theorem Has.not_alias {found : Found α} (h : layers.Has library name found) :
    ∀ next, ¬layers.Alias name next := by
  cases h with
  | defined h => exact not_alias_of_value h
  | standard h _ => exact not_alias_of_none h

/-- A name that is undefined is no alias. -/
theorem Undefined.not_alias (h : layers.Undefined library name) : ∀ next, ¬layers.Alias name next :=
  not_alias_of_none h.1

/-- A name has one value at most. -/
theorem Has.unique {found other : Found α} (h : layers.Has library name found)
    (h' : layers.Has library name other) : found = other := by
  cases h with
  | defined h =>
    cases h' with
    | defined h' => cases h.symm.trans h'; rfl
    | standard h' _ => cases h.symm.trans h'
  | standard h known =>
    cases h' with
    | defined h' => cases h.symm.trans h'
    | standard _ known' => cases known.symm.trans known'; rfl

/-- A name with a value is not undefined. -/
theorem Has.not_undefined {found : Found α} (h : layers.Has library name found) :
    ¬layers.Undefined library name := by
  rintro ⟨hnone, hlibrary⟩
  cases h with
  | defined h => cases h.symm.trans hnone
  | standard _ known => cases known.symm.trans hlibrary

/-- Aliases lead to one end at most. -/
theorem Leads.end_unique {a b : String} (ha : layers.Leads name a) (hb : layers.Leads name b)
    (enda : ∀ next, ¬layers.Alias a next) (endb : ∀ next, ¬layers.Alias b next) : a = b := by
  induction ha using Relation.ReflTransGen.head_induction_on with
  | refl =>
    obtain rfl | ⟨next, hnext, -⟩ := Relation.ReflTransGen.cases_head hb
    · rfl
    · exact absurd hnext (enda next)
  | head hstep _ ih =>
    obtain rfl | ⟨next, hnext, hrest⟩ := Relation.ReflTransGen.cases_head hb
    · exact absurd hstep (endb _)
    · rw [hstep.unique hnext] at ih
      exact ih hrest

/-! ## The way of a search -/

/-- The names that a search has met before a name: they lead to it, and none was met twice. -/
structure Trail (layers : Layers α) (start : String) (chain : List String) (name : String) : Prop where
  chainFrom : layers.ChainFrom start (chain ++ [name])
  fresh : chain.Nodup

namespace Trail

/-- The trail of a walk that has not left its start. -/
theorem single (layers : Layers α) (name : String) : layers.Trail name [] name :=
  ⟨⟨rfl, .singleton name⟩, .nil⟩

/-- A trail goes on along an alias that it has not met. -/
theorem next {target : String} (t : layers.Trail start chain name) (unseen : name ∉ chain)
    (h : layers.Alias name target) : layers.Trail start (chain ++ [name]) target where
  chainFrom.starts := by
    rw [List.head?_append, t.chainFrom.starts]
    rfl
  chainFrom.aliases := by
    refine t.chainFrom.aliases.append (.singleton target) ?_
    simpa using h
  fresh := by
    rw [List.nodup_append]
    refine ⟨t.fresh, List.pairwise_singleton _ name, ?_⟩
    simpa using fun _ ha => ne_of_mem_of_not_mem ha unseen

/-- A trail leads from its start to its end. -/
theorem leads (t : layers.Trail start chain name) : layers.Leads start name := by
  have hne : chain ++ [name] ≠ [] := List.append_ne_nil_of_right_ne_nil _ (List.cons_ne_nil _ _)
  have hleads := List.relationReflTransGen_of_exists_isChain _ t.chainFrom.aliases hne
  rw [List.getLast_append_singleton] at hleads
  have hhead : (chain ++ [name]).head hne = start :=
    Option.some.inj ((List.head?_eq_some_head hne).symm.trans t.chainFrom.starts)
  rwa [hhead] at hleads

end Trail

/-- How a search ends. -/
inductive Ends (layers : Layers α) (start : String) : Landing α → Prop
  | value {chain : List String} {site : Site} {name : String} {value : α}
    (trail : layers.Trail start chain name) (found : layers.find? name = some (site, .inline value)) :
    Ends layers start (.value site name value)
  | missing {chain : List String} {name : String} (trail : layers.Trail start chain name)
    (found : layers.find? name = none) : Ends layers start (.missing (chain ++ [name]) name)
  | circular {chain : List String} {name : String} (trail : layers.Trail start chain name)
    (seen : name ∈ chain) : Ends layers start (.circular (chain ++ [name]))

/-- A search that has come somewhere goes on to its end. -/
theorem Trail.ends (t : layers.Trail start chain name) : layers.Ends start (layers.walk chain name) := by
  fun_induction walk layers chain name with
  | case1 chain name seen => exact .circular t seen
  | case2 chain name unseen found => exact .missing t found
  | case3 chain name unseen site value found => exact .value t found
  | case4 chain name unseen site target found ih => exact ih (t.next unseen ⟨site, found⟩)

/-- In a chain that is continued each name is an alias. -/
theorem exists_alias_of_mem {a : String} (h : (chain ++ [name]).IsChain layers.Alias) (ha : a ∈ chain) :
    ∃ b ∈ chain ++ [name], layers.Alias a b := by
  obtain ⟨before, after, rfl⟩ := List.append_of_mem ha
  rw [List.append_assoc, List.cons_append] at h
  have hrest := h.right_of_append
  cases after with
  | nil => exact ⟨name, by simp, hrest.rel⟩
  | cons b rest => exact ⟨b, by simp, hrest.rel⟩

/-- Names that lead back to themselves are never left. -/
theorem Trail.mem_of_leads (t : layers.Trail start chain name) (seen : name ∈ chain) {b : String}
    (h : layers.Leads start b) : b ∈ chain := by
  induction h with
  | refl =>
    have hne : chain ≠ [] := List.ne_nil_of_mem seen
    have hhead := t.chainFrom.starts
    rw [List.head?_append_of_ne_nil _ hne] at hhead
    exact List.mem_of_head? hhead
  | tail _ hstep ih =>
    obtain ⟨c, hc, halias⟩ := exists_alias_of_mem t.chainFrom.aliases ih
    rw [hstep.unique halias]
    obtain hc | hc := List.mem_append.1 hc
    · exact hc
    · rwa [List.mem_singleton.1 hc]

/-- Aliases that lead into a circle lead to no end. -/
theorem Trail.exists_alias (t : layers.Trail start chain name) (seen : name ∈ chain)
    (h : layers.Leads start last) : ∃ next, layers.Alias last next := by
  obtain ⟨next, -, halias⟩ := exists_alias_of_mem t.chainFrom.aliases (t.mem_of_leads seen h)
  exact ⟨next, halias⟩

/-- A search misses exactly the name without a definition that the aliases lead to. -/
theorem exists_walk_eq_missing_iff :
    (∃ chain, layers.walk [] start = .missing chain last) ↔
      layers.Leads start last ∧ layers.find? last = none := by
  have hends := (Trail.single layers start).ends
  generalize layers.walk [] start = landing at hends
  constructor
  · rintro ⟨chain, rfl⟩
    cases hends with
    | missing trail found => exact ⟨trail.leads, found⟩
  · rintro ⟨hleads, hnone⟩
    cases hends with
    | value trail found =>
      cases trail.leads.end_unique hleads (not_alias_of_value found) (not_alias_of_none hnone)
      cases found.symm.trans hnone
    | missing trail found =>
      cases trail.leads.end_unique hleads (not_alias_of_none found) (not_alias_of_none hnone)
      exact ⟨_, rfl⟩
    | circular trail seen =>
      obtain ⟨next, halias⟩ := trail.exists_alias seen hleads
      exact absurd halias (not_alias_of_none hnone next)

/-- A library has the answer exactly if the walk ends in a missing name that the library knows. -/
theorem fallsBack_iff : layers.FallsBack library start last ↔
    (∃ chain, layers.walk [] start = .missing chain last) ∧ (library last).isSome := by
  rw [exists_walk_eq_missing_iff, FallsBack, and_assoc]

/-- Names that run along aliases from the first one on, all different until the last one is one of them
again. -/
structure Circle (layers : Layers α) (name : String) (chain : List String) : Prop where
  chainFrom : layers.ChainFrom name chain
  distinct : chain.dropLast.Nodup
  repeats : ∃ last ∈ chain.dropLast, chain.getLast? = some last

/-! ## What a search answers -/

/-- How a search without memory answers: with the value at the end of the aliases, or with the way to a name
that is not defined or that it has met before. -/
inductive Settles (library : String → Option α) (layers : Layers α) (start : String) :
    Except NameFault (Found α) → Prop
  | found {name : String} {found : Found α} (leads : layers.Leads start name)
    (has : layers.Has library name found) : Settles library layers start (.ok found)
  | unknown {chain : List String} {name : String} (trail : layers.Trail start chain name)
    (undefined : layers.Undefined library name) :
    Settles library layers start (.error (.unknown (chain ++ [name]) name))
  | circular {chain : List String} {name : String} (trail : layers.Trail start chain name)
    (seen : name ∈ chain) : Settles library layers start (.error (.circular (chain ++ [name])))

/-- The answer of the layers is the one that the end of the walk settles. -/
theorem settles_resolve (library : String → Option α) (layers : Layers α) (name : String) :
    layers.Settles library name (layers.resolve library name) := by
  have hends := (Trail.single layers name).ends
  generalize hlanding : layers.walk [] name = landing at hends
  cases hends with
  | value trail found =>
    rw [resolve_of_value hlanding]
    exact .found trail.leads (.defined found)
  | @missing chain last trail found =>
    rw [resolve_of_missing hlanding]
    cases hlibrary : library last with
    | some value => exact .found trail.leads (.standard found hlibrary)
    | none => exact .unknown trail ⟨found, hlibrary⟩
  | circular trail seen =>
    rw [resolve_of_circular hlanding]
    exact .circular trail seen

namespace Settles

variable {answer : Except NameFault (Found α)} {found : Found α}

/-- Where aliases lead to a name with a value, the answer is that value. -/
theorem eq_ok (h : layers.Settles library start answer) (hleads : layers.Leads start last)
    (has : layers.Has library last found) : answer = .ok found := by
  cases h with
  | found leads has' =>
    cases leads.end_unique hleads has'.not_alias has.not_alias
    rw [has'.unique has]
  | unknown trail undefined =>
    cases trail.leads.end_unique hleads undefined.not_alias has.not_alias
    exact absurd undefined has.not_undefined
  | circular trail seen =>
    obtain ⟨next, halias⟩ := trail.exists_alias seen hleads
    exact absurd halias (has.not_alias next)

/-- Where aliases lead to an undefined name, the answer says that it is unknown. -/
theorem exists_eq_unknown (h : layers.Settles library start answer) (hleads : layers.Leads start last)
    (undefined : layers.Undefined library last) : ∃ chain, answer = .error (.unknown chain last) := by
  cases h with
  | found leads has =>
    cases leads.end_unique hleads has.not_alias undefined.not_alias
    exact absurd undefined has.not_undefined
  | unknown trail undefined' =>
    cases trail.leads.end_unique hleads undefined'.not_alias undefined.not_alias
    exact ⟨_, rfl⟩
  | circular trail seen =>
    obtain ⟨next, halias⟩ := trail.exists_alias seen hleads
    exact absurd halias (undefined.not_alias next)

/-- Where aliases never end, the answer is a circle. -/
theorem exists_eq_circular (h : layers.Settles library start answer)
    (endless : ∀ last, layers.Leads start last → ∃ next, layers.Alias last next) :
    ∃ chain, answer = .error (.circular chain) := by
  cases h with
  | found leads has =>
    obtain ⟨next, halias⟩ := endless _ leads
    exact absurd halias (has.not_alias next)
  | unknown trail undefined =>
    obtain ⟨next, halias⟩ := endless _ trail.leads
    exact absurd halias (undefined.not_alias next)
  | circular trail seen => exact ⟨_, rfl⟩

/-- A value is the answer exactly when the aliases lead to it. -/
theorem eq_ok_iff (h : layers.Settles library start answer) :
    answer = .ok found ↔ ∃ last, layers.Leads start last ∧ layers.Has library last found := by
  refine ⟨fun heq => ?_, fun ⟨last, hleads, has⟩ => h.eq_ok hleads has⟩
  subst heq
  cases h with
  | found leads has => exact ⟨_, leads, has⟩

/-- A name is reported as unknown exactly when the aliases lead to it and nobody defines it. -/
theorem eq_unknown_iff (h : layers.Settles library start answer) :
    (∃ chain, answer = .error (.unknown chain last)) ↔
      layers.Leads start last ∧ layers.Undefined library last := by
  refine ⟨fun ⟨chain, heq⟩ => ?_, fun ⟨hleads, undefined⟩ => h.exists_eq_unknown hleads undefined⟩
  subst heq
  cases h with
  | unknown trail undefined => exact ⟨trail.leads, undefined⟩

/-- A circle is reported exactly when the aliases never end. -/
theorem eq_circular_iff (h : layers.Settles library start answer) :
    (∃ chain, answer = .error (.circular chain)) ↔
      ∀ last, layers.Leads start last → ∃ next, layers.Alias last next := by
  refine ⟨fun ⟨chain, heq⟩ last hleads => ?_, h.exists_eq_circular⟩
  subst heq
  cases h with
  | circular trail seen => exact trail.exists_alias seen hleads

/-- The chain of a circle runs along aliases until it comes back to one of its names. -/
theorem circle (h : layers.Settles library start (.error (.circular chain))) :
    layers.Circle start chain := by
  cases h with
  | @circular before name trail seen =>
    refine ⟨trail.chainFrom, ?_, name, ?_, List.getLast?_concat⟩
    · rw [List.dropLast_concat]
      exact trail.fresh
    · rw [List.dropLast_concat]
      exact seen

/-- The chain of an unknown name runs along aliases to that name. It has more names than one when the first
one is an alias. -/
theorem way (h : layers.Settles library start (.error (.unknown chain last))) :
    layers.ChainFrom start chain ∧ chain.getLast? = some last ∧
      (1 < chain.length ↔ ∃ next, layers.Alias start next) := by
  cases h with
  | @unknown before _ trail undefined =>
    refine ⟨trail.chainFrom, List.getLast?_concat, fun hlong => ?_, fun ⟨next, halias⟩ => ?_⟩
    · cases before with
      | nil => exact absurd hlong (Nat.lt_irrefl 1)
      | cons a rest =>
        cases Option.some.inj trail.chainFrom.starts
        obtain ⟨next, -, halias⟩ := exists_alias_of_mem trail.chainFrom.aliases List.mem_cons_self
        exact ⟨next, halias⟩
    · cases before with
      | nil =>
        cases Option.some.inj trail.chainFrom.starts
        exact absurd halias (undefined.not_alias next)
      | cons a rest => simp

end Settles

end Layers

/-- The issue of an unknown name names it, with the way to it if there is one. -/
theorem answerAt_unknown (kind : String) (path : Path) (chain : List String) (last : String) :
    answerAt kind path (.error (.unknown chain last) : Except NameFault (Found α)) =
      .error (.processing ("unknown " ++ kind ++ " '" ++ ("@" ++ last) ++ "'" ++
        if 1 < chain.length then " (via " ++ " -> ".intercalate (chain.map ("@" ++ ·)) ++ ")" else "") path) :=
  rfl

namespace Registries

/-- The answers of registries tell where aliases lead, whatever has been defined on top of what and whatever
has been asked before. There is a value exactly when the aliases of a name lead to it, an unknown name
exactly when they lead to a name that nobody defines, and a circle exactly when they never end. The issue of
a circle has the names of a way that comes back to itself, and that of an unknown name names it, with the way
to it when it is not the name that was asked for. -/
theorem resolve_tells_where_aliases_lead (kind : String) (libraries : List (String → Option α))
    (definitions : List (String × Ref α)) (requests : List (Request α)) (n : Nat) (name : String)
    (path : Path) :
    let library := fun name => libraries.findSome? fun library => library name
    let r := (root definitions).perform library requests
    let layers := r.view n
    let answer := (r.resolve library n name).1
    (∀ found, answer = .ok found ↔ ∃ last, layers.Leads name last ∧ layers.Has library last found) ∧
    (∀ last, (∃ chain, answer = .error (.unknown chain last)) ↔
      layers.Leads name last ∧ layers.Undefined library last) ∧
    ((∃ chain, answer = .error (.circular chain)) ↔
      ∀ last, layers.Leads name last → ∃ next, layers.Alias last next) ∧
    (∀ chain, answer = .error (.circular chain) → layers.Circle name chain ∧
      answerAt kind path answer = .error
        { Issue.processing
            ("circular " ++ kind ++ " reference: " ++ " -> ".intercalate (chain.map ("@" ++ ·))) path with
          data := some (.object [("chain", .list (chain.map .text))]) }) ∧
    (∀ chain last, answer = .error (.unknown chain last) →
      layers.ChainFrom name chain ∧ chain.getLast? = some last ∧
      ((∃ next, layers.Alias name next) → answerAt kind path answer =
        .error (.processing
          ("unknown " ++ kind ++ " '" ++ ("@" ++ last) ++ "'" ++
            (" (via " ++ " -> ".intercalate (chain.map ("@" ++ ·)) ++ ")")) path)) ∧
      ((¬∃ next, layers.Alias name next) → answerAt kind path answer =
        .error (.processing ("unknown " ++ kind ++ " '" ++ ("@" ++ last) ++ "'") path))) := by
  intro library r layers answer
  have hsound : r.Sound library := perform_sound (sound_root definitions) requests
  have hanswer : answer = layers.resolve library name := (resolve_sound hsound n name).1
  have hsettles : layers.Settles library name answer := by
    rw [hanswer]
    exact Layers.settles_resolve library layers name
  refine ⟨fun found => hsettles.eq_ok_iff, fun last => hsettles.eq_unknown_iff, hsettles.eq_circular_iff,
    fun chain heq => ?_, fun chain last heq => ?_⟩
  · rw [heq] at hsettles ⊢
    exact ⟨hsettles.circle, rfl⟩
  · rw [heq] at hsettles ⊢
    obtain ⟨hchain, hlast, hlong⟩ := hsettles.way
    refine ⟨hchain, hlast, fun halias => ?_, fun hdirect => ?_⟩
    · rw [answerAt_unknown, if_pos (hlong.2 halias)]
    · rw [answerAt_unknown, if_neg fun hfollowed => hdirect (hlong.1 hfollowed), String.append_empty]

end Registries

end Workbook

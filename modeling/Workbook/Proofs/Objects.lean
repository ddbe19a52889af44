import Workbook.Proofs.Learning
import Workbook.Proofs.Naturality
import Workbook.Proofs.Sessions

/-!
# One object per definition

Values of definitions are allocated once, when the definitions of a level are laid over others, and a value
from a standard library when it is first asked for. Registries hand out these objects, from memory or by a
search. Here objects carry the number of their allocation, and the registries are those of all other
proofs, at definitions that hold objects. Two answers are the same object exactly when the searches for
them end at the same definition, or at the standard library under the same name.

The invariant is that every object which a registry can hand out is held for one origin, and no origin holds
two. Objects that are new have numbers that nothing had before.
-/

namespace Workbook

variable {α β : Type}

/-! ## Objects -/

/-- A value in memory. Objects are told apart by the numbers of their allocations. -/
structure Object (α : Type) where
  number : Nat
  value : α

/-- Definitions with a new object for each value that is written in them, from a number on, and the number
of the next object. -/
def store (next : Nat) : List (String × Ref α) → List (String × Ref (Object α)) × Nat
  | [] => ([], next)
  | (name, .named target) :: rest =>
    let (stored, last) := store next rest
    ((name, .named target) :: stored, last)
  | (name, .inline value) :: rest =>
    let (stored, last) := store (next + 1) rest
    ((name, .inline ⟨next, value⟩) :: stored, last)

/-- Registries of objects, and the number of the next object. -/
structure Heap (α : Type) where
  registries : Registries (Object α)
  next : Nat

/-- Something that is done with registries of objects. -/
inductive Access (α : Type) where
  /-- Open a registry with definitions on top of another. -/
  | overlay (parent : Nat) (definitions : List (String × Ref α))
  /-- Ask a registry for a name, or take a value as it is written. -/
  | use (registry : Nat) (r : Ref α)

namespace Heap

/-- The root alone. -/
def root (definitions : List (String × Ref α)) : Heap α :=
  let (stored, next) := store 0 definitions
  ⟨Registries.root stored, next⟩

/-- Open a registry on top of another. -/
def overlay (h : Heap α) (parent : Nat) (definitions : List (String × Ref α)) : Heap α :=
  let (stored, next) := store h.next definitions
  ⟨h.registries.overlay parent stored, next⟩

/-- Ask a registry for a name. What comes from a library is a new object. -/
def resolve (library : String → Option α) (h : Heap α) (n : Nat) (name : String) :
    Except NameFault (Found (Object α)) × Heap α :=
  let (answer, registries) := h.registries.resolve (fun name => (library name).map (Object.mk h.next)) n name
  (answer, ⟨registries, h.next + 1⟩)

/-- Ask for a name, or make a new object of a value that is written in place. -/
def use (library : String → Option α) (h : Heap α) (n : Nat) :
    Ref α → Except NameFault (Found (Object α)) × Heap α
  | .named name => h.resolve library n name
  | .inline value => (.ok ⟨⟨h.next, value⟩, .inline⟩, { h with next := h.next + 1 })

/-- The answers in their order. -/
def run (library : String → Option α) (h : Heap α) :
    List (Access α) → List (Except NameFault (Found (Object α)))
  | [] => []
  | .overlay parent definitions :: rest => run library (h.overlay parent definitions) rest
  | .use n r :: rest =>
    let (answer, h) := h.use library n r
    answer :: run library h rest

/-- The registries with the values of objects alone. -/
def plain (h : Heap α) : Registries α := h.registries.map Object.value

end Heap

/-! ## Values -/

/-- The end of the search for what is used, without memory. -/
def Registries.endOf (library : String → Option α) (r : Registries α) (n : Nat) :
    Ref α → Except NameFault (Found α)
  | .named name => (r.view n).resolve library name
  | .inline value => .ok ⟨value, .inline⟩

/-- The ends of the searches in their order, each without memory. -/
def Registries.ends (library : String → Option α) (r : Registries α) :
    List (Access α) → List (Except NameFault (Found α))
  | [] => []
  | .overlay parent definitions :: rest => ends library (r.overlay parent definitions) rest
  | .use n t :: rest => r.endOf library n t :: ends library r rest

/-- The ends of searches depend on what registries see only. -/
theorem Registries.ends_congr (library : String → Option α) {r r' : Registries α} (h : r'.views = r.views)
    (accesses : List (Access α)) : r'.ends library accesses = r.ends library accesses := by
  have hview {r r' : Registries α} (h : r'.views = r.views) (n : Nat) : r'.view n = r.view n := by
    rw [view, view, h]
  induction accesses generalizing r r' with
  | nil => rfl
  | cons access rest ih =>
    cases access with
    | overlay parent definitions =>
      refine ih ?_
      rw [overlay, overlay, hview h, h]
    | use n t =>
      rw [ends, ends, ih h]
      cases t with
      | inline value => rfl
      | named name => rw [endOf, endOf, hview h]

/-- Stored definitions have the values that were stored. -/
theorem mapEntries_store (next : Nat) (definitions : List (String × Ref α)) :
    mapEntries Object.value (store next definitions).1 = definitions := by
  fun_induction store next definitions with
  | case1 => rfl
  | case2 next name target rest stored last hstore ih =>
    rw [hstore] at ih
    exact congrArg _ ih
  | case3 next name value rest stored last hstore ih =>
    rw [hstore] at ih
    exact congrArg _ ih

namespace Heap

/-- The root of objects has the values of the root. -/
theorem plain_root (definitions : List (String × Ref α)) :
    (root definitions).plain = Registries.root definitions := by
  have hstored := Layers.overlay_map Object.value [] (store 0 definitions).1 []
  rw [mapEntries_store] at hstored
  unfold plain root Registries.root Registries.map
  rw [List.map_singleton, ← hstored]
  rfl

/-- Opening a registry of objects opens one of their values. -/
theorem plain_overlay (h : Heap α) (parent : Nat) (definitions : List (String × Ref α)) :
    (h.overlay parent definitions).plain = h.plain.overlay parent definitions := by
  have hstored := Registries.overlay_map Object.value h.registries parent (store h.next definitions).1
  rw [mapEntries_store] at hstored
  exact hstored.symm

/-- The numbers of objects do not matter to an answer. -/
theorem plain_resolve (library : String → Option α) (h : Heap α) (n : Nat) (name : String) :
    ((h.resolve library n name).1.map (Found.map Object.value), (h.resolve library n name).2.plain) =
      h.plain.resolve library n name := by
  have hlibrary : (fun name => ((library name).map (Object.mk h.next)).map Object.value) = library := by
    funext name
    rw [Option.map_map]
    exact Option.map_id'
  have hresolve := Registries.resolve_map Object.value h.registries
    (fun name => (library name).map (Object.mk h.next)) n name
  rw [hlibrary] at hresolve
  exact hresolve.symm

variable {library : String → Option α} {h : Heap α}

/-- What is used is answered as a search without memory answers it. -/
theorem use_sound (hs : h.plain.Sound library) (n : Nat) (r : Ref α) :
    (h.use library n r).1.map (Found.map Object.value) = h.plain.endOf library n r ∧
      (h.use library n r).2.plain.Sound library ∧ (h.use library n r).2.plain.views = h.plain.views := by
  cases r with
  | inline value => exact ⟨rfl, hs, rfl⟩
  | named name =>
    have hresolve := plain_resolve library h n name
    obtain ⟨hanswer, hsound⟩ := Registries.resolve_sound hs n name
    rw [← hresolve] at hanswer hsound
    exact ⟨hanswer, hsound, rfl⟩

/-- The answers have the values and origins of searches without memory. -/
theorem run_ends (hs : h.plain.Sound library) (accesses : List (Access α)) :
    (h.run library accesses).map (·.map (Found.map Object.value)) = h.plain.ends library accesses := by
  induction accesses generalizing h with
  | nil => rfl
  | cons access rest ih =>
    cases access with
    | overlay parent definitions =>
      rw [run, Registries.ends, ← plain_overlay]
      refine ih ?_
      rw [plain_overlay]
      exact Registries.sound_overlay hs parent definitions
    | use n r =>
      obtain ⟨hanswer, hsound, hviews⟩ := use_sound hs n r
      rw [run, Registries.ends, List.map_cons, hanswer, ih hsound, Registries.ends_congr library hviews]

end Heap

/-! ## Numbers -/

/-- Two answers are the same object if they have one origin, and not that of values written in place. -/
theorem Origin.same_iff {o p : Origin} : o.same p ↔ o = p ∧ p ≠ .inline := by
  cases o <;> cases p <;> simp [same]

/-- Objects by their origins: each is that of one origin, and no origin has two. -/
structure Numbering (holds : Origin → Nat → Prop) (next : Nat) : Prop where
  functional : ∀ {o n m}, holds o n → holds o m → n = m
  injective : ∀ {o p n}, holds o n → holds p n → o = p
  bound : ∀ {o n}, holds o n → n < next

/-- New objects have new numbers and new origins. -/
theorem Numbering.extend {holds holds' added : Origin → Nat → Prop} {next next' : Nat}
    (h : Numbering holds next) (ha : Numbering added next') (hle : next ≤ next')
    (old : ∀ {o n}, holds' o n → holds o n ∨ added o n) (fresh : ∀ {o n}, added o n → next ≤ n)
    (apart : ∀ {o n m}, added o n → ¬holds o m) : Numbering holds' next' where
  functional hn hm := by
    obtain hn | hn := old hn <;> obtain hm | hm := old hm
    · exact h.functional hn hm
    · exact absurd hn (apart hm)
    · exact absurd hm (apart hn)
    · exact ha.functional hn hm
  injective hn hm := by
    obtain hn | hn := old hn <;> obtain hm | hm := old hm
    · exact h.injective hn hm
    · exact absurd (fresh hm) (Nat.not_le.2 (h.bound hn))
    · exact absurd (fresh hn) (Nat.not_le.2 (h.bound hm))
    · exact ha.injective hn hm
  bound hn := by
    obtain hn | hn := old hn
    · exact Nat.lt_of_lt_of_le (h.bound hn) hle
    · exact ha.bound hn

/-- Fewer objects below a greater number are told apart as well. -/
theorem Numbering.mono {holds holds' : Origin → Nat → Prop} {next next' : Nat} (h : Numbering holds next)
    (hle : next ≤ next') (old : ∀ {o n}, holds' o n → holds o n) : Numbering holds' next' where
  functional hn hm := h.functional (old hn) (old hm)
  injective hn hm := h.injective (old hn) (old hm)
  bound hn := Nat.lt_of_lt_of_le (h.bound (old hn)) hle

namespace Registries

/-- An object is that of a definition which a registry sees, or the one that the root has taken from a
library under a name. -/
inductive Holds (r : Registries (Object α)) : Origin → Nat → Prop
  | definition {view : Layers (Object α)} {layer : Layer (Object α)} {name : String} {object : Object α}
    (hview : view ∈ r.views) (hlayer : layer ∈ view)
    (entry : layer.entries.lookup name = some (.inline object)) :
    Holds r (.definition layer.site name) object.number
  | standard {name : String} {object : Object α}
    (h : r.memo.remembered? [] name = some ⟨object, .standard name⟩) : Holds r (.standard name) object.number

end Registries

namespace Heap

/-- An object has been allocated for an origin and can be handed out again. -/
abbrev Holds (h : Heap α) : Origin → Nat → Prop := h.registries.Holds

/-- Every object that can be handed out is the one of its origin. -/
structure Numbered (h : Heap α) : Prop where
  views : h.registries.views ≠ []
  numbering : Numbering h.Holds h.next
  site : ∀ {site name n}, h.Holds (.definition site name) n →
    site = [] ∨ ∃ k < h.registries.views.length, site = [k]
  memory : ∀ {site name found}, h.registries.memo.remembered? site name = some found →
    h.Holds found.origin found.value.number

/-- Objects stay, and those that are new have new numbers. -/
structure Grows (h h' : Heap α) : Prop where
  next : h.next ≤ h'.next
  kept : ∀ {o n}, h.Holds o n → h'.Holds o n
  fresh : ∀ {o n}, h'.Holds o n → h.Holds o n ∨ h.next ≤ n

/-- An object has been handed out for an origin. One that was written in place is that of nothing else. -/
structure Knows (h : Heap α) (o : Origin) (n : Nat) : Prop where
  bound : n < h.next
  held : o = .inline ∨ h.Holds o n
  only : ∀ {p}, h.Holds p n → p = o

variable {library : String → Option α} {h h' : Heap α} {o p : Origin} {n m : Nat}

/-- No object that can be handed out again is one that was written in place. -/
theorem not_holds_inline : ¬h.Holds .inline n := by
  intro hn
  cases hn

/-- What has been handed out stays known. -/
theorem Knows.grows (hk : h.Knows o n) (hg : h.Grows h') : h'.Knows o n where
  bound := Nat.lt_of_lt_of_le hk.bound hg.next
  held := hk.held.imp_right hg.kept
  only hp := by
    obtain hp | hnew := hg.fresh hp
    · exact hk.only hp
    · exact absurd hk.bound (Nat.not_lt.2 hnew)

/-- An object that can be handed out again has been handed out for its origin only. -/
theorem Numbered.knows (hn : h.Numbered) (ho : h.Holds o n) : h.Knows o n where
  bound := hn.numbering.bound ho
  held := .inr ho
  only hp := hn.numbering.injective hp ho

/-- An object that has been handed out and one that is held are the same if their origins are. -/
theorem Knows.number_eq_iff (hn : h.Numbered) (hk : h.Knows o n) (hp : h.Holds p m) :
    n = m ↔ o.same p := by
  rw [Origin.same_iff]
  constructor
  · rintro rfl
    refine ⟨(hk.only hp).symm, ?_⟩
    rintro rfl
    exact not_holds_inline hp
  · rintro ⟨rfl, hwritten⟩
    exact hn.numbering.functional (hk.held.resolve_left hwritten) hp

/-! ## What opening a registry allocates -/

/-- Storing definitions allocates upwards. -/
theorem store_le (next : Nat) (definitions : List (String × Ref α)) : next ≤ (store next definitions).2 := by
  fun_induction store next definitions with
  | case1 => exact Nat.le_refl _
  | case2 next name target rest stored last hstore ih =>
    rw [hstore] at ih
    exact ih
  | case3 next name value rest stored last hstore ih =>
    rw [hstore] at ih
    exact Nat.le_of_succ_le ih

/-- Stored objects have the numbers from the given one to the next one. -/
theorem number_of_lookup_store {next : Nat} {definitions : List (String × Ref α)} {name : String}
    {object : Object α} (h : (store next definitions).1.lookup name = some (.inline object)) :
    next ≤ object.number ∧ object.number < (store next definitions).2 := by
  fun_induction store next definitions with
  | case1 => cases h
  | case2 next key target rest stored last hstore ih =>
    rw [hstore] at ih
    rw [List.lookup_cons] at h
    split at h
    · cases h
    · exact ih h
  | case3 next key value rest stored last hstore ih =>
    have hle := store_le (next + 1) rest
    rw [hstore] at ih hle
    rw [List.lookup_cons] at h
    split at h
    · cases h
      exact ⟨Nat.le_refl _, hle⟩
    · exact ⟨Nat.le_of_succ_le (ih h).1, (ih h).2⟩

/-- No two names share a stored object. -/
theorem store_injective {next : Nat} {definitions : List (String × Ref α)} {name name' : String}
    {object object' : Object α} (h : (store next definitions).1.lookup name = some (.inline object))
    (h' : (store next definitions).1.lookup name' = some (.inline object'))
    (hnumber : object.number = object'.number) : name = name' := by
  fun_induction store next definitions with
  | case1 => cases h
  | case2 next key target rest stored last hstore ih =>
    rw [hstore] at ih
    rw [List.lookup_cons] at h h'
    split at h
    · cases h
    · split at h'
      · cases h'
      · exact ih h h'
  | case3 next key value rest stored last hstore ih =>
    -- the first object has a number below all others
    have hrest {name : String} {object : Object α} (h : stored.lookup name = some (.inline object)) :
        next < object.number := by
      have hlookup : (store (next + 1) rest).1.lookup name = some (.inline object) := by rw [hstore, h]
      exact (number_of_lookup_store hlookup).1
    rw [hstore] at ih
    rw [List.lookup_cons] at h h'
    split at h <;> rename_i hname <;> split at h' <;> rename_i hname'
    · rw [eq_of_beq hname, eq_of_beq hname']
    · cases h
      exact absurd hnumber (Nat.ne_of_lt (hrest h'))
    · cases h'
      exact absurd hnumber.symm (Nat.ne_of_lt (hrest h))
    · exact ih h h'

/-- A layer on top of others is the new one or one of them. -/
theorem mem_overlay {site : Site} {entries : List (String × Ref β)} {layers : Layers β} {layer : Layer β}
    (h : layer ∈ layers.overlay site entries) : layer = ⟨site, entries⟩ ∨ layer ∈ layers := by
  unfold Layers.overlay at h
  split at h
  · exact .inr h
  · exact List.mem_cons.1 h

/-- The objects of definitions that have been stored for a site. -/
def Stored (next : Nat) (site : Site) (definitions : List (String × Ref α)) (o : Origin) (n : Nat) : Prop :=
  ∃ name object, o = .definition site name ∧ n = object.number ∧
    (store next definitions).1.lookup name = some (.inline object)

/-- The objects of definitions that are stored at once are told apart by their names. -/
theorem numbering_stored (next : Nat) (site : Site) (definitions : List (String × Ref α)) :
    Numbering (Stored next site definitions) (store next definitions).2 where
  functional := by
    rintro _ _ _ ⟨name, object, rfl, rfl, hn⟩ ⟨name', object', ho, rfl, hm⟩
    cases ho
    cases hn.symm.trans hm
    rfl
  injective := by
    rintro _ _ _ ⟨name, object, rfl, rfl, hn⟩ ⟨name', object', rfl, hnumber, hm⟩
    rw [store_injective hn hm hnumber]
  bound := by
    rintro _ _ ⟨name, object, -, rfl, hn⟩
    exact (number_of_lookup_store hn).2

/-- The objects of the root are those of its definitions. -/
theorem Numbered.root (definitions : List (String × Ref α)) : (root definitions).Numbered := by
  have hold {o : Origin} {n : Nat} (ho : (Heap.root definitions).Holds o n) : Stored 0 [] definitions o n := by
    cases ho with
    | standard hr => cases hr
    | definition hview hlayer entry =>
      cases List.mem_singleton.1 hview
      obtain rfl | hlayer := mem_overlay hlayer
      · exact ⟨_, _, rfl, rfl, entry⟩
      · cases hlayer
  refine ⟨List.cons_ne_nil _ _, (numbering_stored 0 [] definitions).mono (Nat.le_refl _) hold, ?_, ?_⟩
  · intro site name n ho
    obtain ⟨_, _, horigin, -⟩ := hold ho
    cases horigin
    exact .inl rfl
  · intro site name found hr
    cases hr

/-- Stored objects have new numbers. -/
theorem Stored.le {next : Nat} {site : Site} {definitions : List (String × Ref α)}
    (hs : Stored next site definitions o n) : next ≤ n := by
  obtain ⟨name, object, -, rfl, entry⟩ := hs
  exact (number_of_lookup_store entry).1

/-- No object is held yet for what is stored at the site of the next registry. -/
theorem Numbered.not_holds_of_stored (hn : h.Numbered) {next : Nat} {definitions : List (String × Ref α)}
    (hs : Stored next [h.registries.views.length] definitions o n) : ¬h.Holds o m := by
  intro hm
  obtain ⟨name, object, rfl, -⟩ := hs
  obtain hroot | ⟨k, hk, hsite⟩ := hn.site hm
  · exact List.cons_ne_nil _ _ hroot
  · exact absurd hk (List.singleton_inj.1 hsite ▸ Nat.lt_irrefl _)

/-- What is held stays held when a registry is opened. -/
theorem Holds.overlay (ho : h.Holds o n) (parent : Nat) (definitions : List (String × Ref α)) :
    (h.overlay parent definitions).Holds o n := by
  cases ho with
  | definition hview hlayer entry => exact .definition (List.mem_append_left _ hview) hlayer entry
  | standard hr => exact .standard hr

/-- What is held after a registry was opened was held before, or it is stored for it. -/
theorem Numbered.holds_of_overlay (hn : h.Numbered) {parent : Nat} {definitions : List (String × Ref α)}
    (ho : (h.overlay parent definitions).Holds o n) :
    h.Holds o n ∨ Stored h.next [h.registries.views.length] definitions o n := by
  cases ho with
  | standard hr => exact .inl (.standard hr)
  | definition hview hlayer entry =>
    obtain hview | hview := List.mem_append.1 hview
    · exact .inl (.definition hview hlayer entry)
    · cases List.mem_singleton.1 hview
      obtain rfl | hlayer := mem_overlay hlayer
      · exact .inr ⟨_, _, rfl, rfl, entry⟩
      · exact .inl (.definition (getD_headD_mem hn.views parent []) hlayer entry)

/-- Opening a registry keeps the numbers of objects and adds new ones. -/
theorem Numbered.overlay (hn : h.Numbered) (parent : Nat) (definitions : List (String × Ref α)) :
    (h.overlay parent definitions).Numbered ∧ h.Grows (h.overlay parent definitions) := by
  have hlength : (h.overlay parent definitions).registries.views.length = h.registries.views.length + 1 :=
    List.length_append
  refine ⟨⟨List.append_ne_nil_of_left_ne_nil hn.views _, ?_, ?_, fun hr => (hn.memory hr).overlay _ _⟩,
    ⟨store_le _ _, fun ho => ho.overlay _ _, fun ho => (hn.holds_of_overlay ho).imp_right Stored.le⟩⟩
  · exact hn.numbering.extend (numbering_stored _ _ _) (store_le _ _) hn.holds_of_overlay Stored.le
      hn.not_holds_of_stored
  · intro other name n ho
    obtain ho | ⟨_, _, horigin, -⟩ := hn.holds_of_overlay ho
    · exact (hn.site ho).imp_right fun ⟨k, hk, hs⟩ => ⟨k, by omega, hs⟩
    · cases horigin
      exact .inr ⟨_, by omega, rfl⟩

/-! ## What a question allocates -/

/-- The heap after a question, with another memory. -/
def learned (h : Heap α) (m : Memo (Object α)) : Heap α := ⟨{ h.registries with memo := m }, h.next + 1⟩

/-- A memory that learns only what is held allocates nothing. -/
theorem Numbered.learned_of_held (hn : h.Numbered) {m : Memo (Object α)}
    (kept : ∀ {site name found}, h.registries.memo.remembered? site name = some found →
      m.remembered? site name = some found)
    (held : ∀ {site name found}, m.remembered? site name = some found →
      h.Holds found.origin found.value.number) :
    (h.learned m).Numbered ∧ h.Grows (h.learned m) := by
  have hkept {o : Origin} {n : Nat} (ho : h.Holds o n) : (h.learned m).Holds o n := by
    cases ho with
    | definition hview hlayer entry => exact .definition hview hlayer entry
    | standard hr => exact .standard (kept hr)
  have hold {o : Origin} {n : Nat} (ho : (h.learned m).Holds o n) : h.Holds o n := by
    cases ho with
    | definition hview hlayer entry => exact .definition hview hlayer entry
    | standard hr => exact held hr
  exact ⟨⟨hn.views, hn.numbering.mono (Nat.le_succ _) hold, fun ho => hn.site (hold ho),
    fun hr => hkept (held hr)⟩, ⟨Nat.le_succ _, hkept, fun ho => .inl (hold ho)⟩⟩

/-- A value that the root takes from a library is a new object. -/
theorem Numbered.learned_of_taken (hn : h.Numbered) {m : Memo (Object α)} {name : String} {value : α}
    (new : h.registries.memo.remembered? [] name = none)
    (kept : m.remembered? [] name = some ⟨⟨h.next, value⟩, .standard name⟩)
    (learns : h.registries.memo.Learns m ⟨⟨h.next, value⟩, .standard name⟩) :
    (h.learned m).Numbered ∧ h.Grows (h.learned m) ∧ (h.learned m).Holds (.standard name) h.next := by
  have hkept {o : Origin} {n : Nat} (ho : h.Holds o n) : (h.learned m).Holds o n := by
    cases ho with
    | definition hview hlayer entry => exact .definition hview hlayer entry
    | standard hr => exact .standard (learns.kept hr)
  have hnew : (h.learned m).Holds (.standard name) (Object.mk h.next value).number := .standard kept
  have hold {o : Origin} {n : Nat} (ho : (h.learned m).Holds o n) :
      h.Holds o n ∨ (o = .standard name ∧ n = h.next) := by
    cases ho with
    | definition hview hlayer entry => exact .inl (.definition hview hlayer entry)
    | standard hr =>
      obtain hr | heq := learns.only hr
      · exact .inl (.standard hr)
      · cases heq
        exact .inr ⟨rfl, rfl⟩
  have hadded : Numbering (fun o n => o = .standard name ∧ n = h.next) (h.next + 1) :=
    ⟨fun hn hm => hn.2.trans hm.2.symm, fun hn hm => hn.1.trans hm.1.symm, fun hn => by omega⟩
  have hapart {o : Origin} {n k : Nat} (ho : o = .standard name ∧ n = h.next) : ¬h.Holds o k := by
    rintro hk
    obtain ⟨rfl, rfl⟩ := ho
    cases hk with
    | standard hr => cases new.symm.trans hr
  refine ⟨⟨hn.views, ?_, ?_, ?_⟩, ⟨Nat.le_succ _, hkept, ?_⟩, hnew⟩
  · exact hn.numbering.extend hadded (Nat.le_succ _) hold (fun ho => Nat.le_of_eq ho.2.symm) hapart
  · intro site name n ho
    obtain ho | ho := hold ho
    · exact hn.site ho
    · cases ho.1
  · intro site asked found hr
    obtain hr | rfl := learns.only hr
    · exact hkept (hn.memory hr)
    · exact hnew
  · intro o n ho
    exact (hold ho).imp_right fun hnew => Nat.le_of_eq hnew.2.symm

/-- An answer is held for its origin. -/
theorem Numbered.answered (hn : h.Numbered) {view : Layers (Object α)} (hview : view ∈ h.registries.views)
    {library : String → Option α} {m : Memo (Object α)} {answer : Except NameFault (Found (Object α))}
    (ha : h.registries.memo.Answered m (fun name => (library name).map (Object.mk h.next)) view answer) :
    (h.learned m).Numbered ∧ h.Grows (h.learned m) ∧
      ∀ found, answer = .ok found → (h.learned m).Holds found.origin found.value.number := by
  cases ha with
  | fault same =>
    obtain ⟨hnumbered, hgrows⟩ := hn.learned_of_held (fun hr => by rw [same, hr])
      fun hr => hn.memory (by rw [← same, hr])
    exact ⟨hnumbered, hgrows, fun found hf => by cases hf⟩
  | @known _ _ found hr learns =>
    obtain ⟨hnumbered, hgrows⟩ := hn.learned_of_held learns.kept fun hr' =>
      (learns.only hr').elim hn.memory fun heq => heq ▸ hn.memory hr
    exact ⟨hnumbered, hgrows, fun found hf => by cases hf; exact hgrows.kept (hn.memory hr)⟩
  | defined hwalk learns =>
    obtain ⟨layer, hlayer, rfl, entry⟩ := Layers.exists_layer_of_walk hwalk
    have held := Registries.Holds.definition hview hlayer entry
    obtain ⟨hnumbered, hgrows⟩ := hn.learned_of_held learns.kept fun hr =>
      (learns.only hr).elim hn.memory fun heq => heq ▸ held
    exact ⟨hnumbered, hgrows, fun found hf => by cases hf; exact hgrows.kept held⟩
  | taken new hlibrary kept learns =>
    obtain ⟨value, -, rfl⟩ := Option.map_eq_some_iff.1 hlibrary
    obtain ⟨hnumbered, hgrows, held⟩ := hn.learned_of_taken new kept learns
    exact ⟨hnumbered, hgrows, fun found hf => by cases hf; exact held⟩

/-- Asking for a name keeps the objects apart, and the answer is held for its origin. -/
theorem Numbered.resolve (hn : h.Numbered) (library : String → Option α) (n : Nat) (name : String) :
    (h.resolve library n name).2.Numbered ∧ h.Grows (h.resolve library n name).2 ∧
      ∀ found, (h.resolve library n name).1 = .ok found →
        (h.resolve library n name).2.Holds found.origin found.value.number := by
  have hview : h.registries.view n ∈ h.registries.views := getD_headD_mem hn.views n []
  exact hn.answered hview (Memo.resolve_answered h.registries.memo _ (h.registries.view n) name)

/-- A value that is written in place is a new object, and the registries stay. -/
theorem Numbered.inline (hn : h.Numbered) :
    (⟨h.registries, h.next + 1⟩ : Heap α).Numbered ∧ h.Grows ⟨h.registries, h.next + 1⟩ ∧
      (⟨h.registries, h.next + 1⟩ : Heap α).Knows .inline h.next :=
  ⟨⟨hn.views, hn.numbering.mono (Nat.le_succ _) id, hn.site, hn.memory⟩, ⟨Nat.le_succ _, id, .inl⟩,
    ⟨Nat.lt_succ_self _, .inl rfl, fun hp => absurd (hn.numbering.bound hp) (Nat.lt_irrefl _)⟩⟩

/-- One use keeps the objects apart, and what it hands out is known afterwards. -/
theorem Numbered.use (hn : h.Numbered) (library : String → Option α) (n : Nat) (r : Ref α) :
    (h.use library n r).2.Numbered ∧ h.Grows (h.use library n r).2 ∧
      ∀ found, (h.use library n r).1 = .ok found →
        (h.use library n r).2.Knows found.origin found.value.number := by
  cases r with
  | inline value =>
    obtain ⟨hnumbered, hgrows, hknows⟩ := hn.inline
    exact ⟨hnumbered, hgrows, fun found hf => by cases hf; exact hknows⟩
  | named name =>
    obtain ⟨hnumbered, hgrows, hheld⟩ := hn.resolve library n name
    exact ⟨hnumbered, hgrows, fun found hf => hnumbered.knows (hheld found hf)⟩

/-- What one use hands out is an object that was handed out before exactly when the origins are the same. -/
theorem Knows.use_eq_iff (hn : h.Numbered) (hk : h.Knows o n) (k : Nat) (r : Ref α)
    {found : Found (Object α)} (hf : (h.use library k r).1 = .ok found) :
    n = found.value.number ↔ o.same found.origin := by
  cases r with
  | inline value =>
    cases hf
    rw [Origin.same_iff]
    exact iff_of_false (Nat.ne_of_lt hk.bound) fun hsame => hsame.2 rfl
  | named name =>
    obtain ⟨hnumbered, hgrows, hheld⟩ := hn.resolve library k name
    exact (hk.grows hgrows).number_eq_iff hnumbered (hheld found hf)

/-! ## Any number of questions -/

/-- Answers with values are one object exactly when their origins are the same. -/
def AsOrigins (a b : Except NameFault (Found (Object α))) : Prop :=
  ∀ x y, a = .ok x → b = .ok y → (x.value.number = y.value.number ↔ x.origin.same y.origin)

/-- Later answers and an object that has been handed out. -/
theorem Knows.run (hn : h.Numbered) (hk : h.Knows o n) (accesses : List (Access α))
    {answer : Except NameFault (Found (Object α))} (ha : answer ∈ h.run library accesses)
    {found : Found (Object α)} (hf : answer = .ok found) : n = found.value.number ↔ o.same found.origin := by
  induction accesses generalizing h with
  | nil => cases ha
  | cons access rest ih =>
    cases access with
    | overlay parent definitions =>
      obtain ⟨hnumbered, hgrows⟩ := hn.overlay parent definitions
      exact ih hnumbered (hk.grows hgrows) ha
    | use k r =>
      obtain ⟨hnumbered, hgrows, -⟩ := hn.use library k r
      obtain rfl | ha := List.mem_cons.1 ha
      · exact hk.use_eq_iff hn k r hf
      · exact ih hnumbered (hk.grows hgrows) ha

/-- Answers are one object exactly when their origins are the same. -/
theorem Numbered.run (hn : h.Numbered) (library : String → Option α) (accesses : List (Access α)) :
    (h.run library accesses).Pairwise AsOrigins := by
  induction accesses generalizing h with
  | nil => exact .nil
  | cons access rest ih =>
    cases access with
    | overlay parent definitions => exact ih (hn.overlay parent definitions).1
    | use k r =>
      obtain ⟨hnumbered, hgrows, hknows⟩ := hn.use library k r
      refine .cons (fun answer ha x y hx hy => ?_) (ih hnumbered)
      exact (hknows x hx).run hnumbered rest ha hy

end Heap

/-! ## Sessions -/

namespace Session

/-- What a request does with the registries of a kind, if it does anything. -/
def Request.access? (k : Kind) : Request → Option (Access k.Value)
  | .overlay parent definitions => some (.overlay parent ((definitions.getD {}).entries k))
  | .use n k' r => if h : k' = k then some (.use n (h ▸ r)) else none

/-- The answers of a session for a kind, in the order of the requests. -/
def answers (k : Kind) (s : Session) : List Request → List (Except NameFault (Found k.Value))
  | [] => []
  | .overlay parent definitions :: rest => answers k (s.overlay parent definitions) rest
  | .use n k' r :: rest =>
    if h : k' = k then (s.resolveRef n k (h ▸ r)).1 :: answers k (s.resolveRef n k' r).2 rest
    else answers k (s.resolveRef n k' r).2 rest

/-- A session answers as its registries do without memory. -/
theorem answers_eq_ends {definitions : Option Definitions} {options : CompileOptions} {s : Session}
    (h : Reachable definitions options s) (k : Kind) (requests : List Request) :
    s.answers k requests = (s.registries k).ends ((Scope.root definitions options).standard k)
      (requests.filterMap (·.access? k)) := by
  induction requests generalizing s with
  | nil => rfl
  | cons request rest ih =>
    cases request with
    | overlay parent more =>
      have hnext := ih (h.overlay parent more)
      rw [registries_overlay] at hnext
      exact hnext
    | use n k' r =>
      have hnext := ih (h.step (.use n k' r))
      have hviews : ((s.step (.use n k' r)).registries k).views = (s.registries k).views := by
        cases r <;> rfl
      rw [Registries.ends_congr _ hviews] at hnext
      rw [answers, List.filterMap_cons, Request.access?]
      split
      · rename_i hk
        subst hk
        have hanswer : (s.resolveRef n k' r).1 =
            (s.registries k').endOf ((Scope.root definitions options).standard k') n r := by
          cases r with
          | inline value => rfl
          | named name =>
            refine (h.resolve_eq n k' name).trans ?_
            rw [Registries.endOf, view_registries, Scope.resolve, h.standard_scope]
        exact List.cons_eq_cons.2 ⟨hanswer, hnext⟩
      · exact hnext

end Session

/-- Whatever is asked of the scopes of a session and however these are opened, the answers of a kind are
objects for what the searches for them end at, and two of them are one object exactly when the searches end
at the same definition of the same level, or at the standard library under the same name. A value that is
written in place is always a new object. -/
theorem one_object_per_definition (definitions : Option Definitions) (options : CompileOptions) (k : Kind)
    (requests : List Session.Request) :
    let library := (Scope.root definitions options).standard k
    let entries := (definitions.getD {}).entries k
    let accesses := requests.filterMap (·.access? k)
    let objects := (Heap.root entries).run library accesses
    objects.map (·.map (Found.map Object.value)) = (Registries.root entries).ends library accesses ∧
      (Session.start definitions options).answers k requests =
        (Registries.root entries).ends library accesses ∧
      objects.Pairwise Heap.AsOrigins := by
  intro library entries accesses objects
  have hsound : (Heap.root entries).plain.Sound library := by
    rw [Heap.plain_root]
    exact Registries.sound_root entries
  refine ⟨?_, ?_, (Heap.Numbered.root entries).run library accesses⟩
  · rw [Heap.run_ends hsound, Heap.plain_root]
  · rw [Session.answers_eq_ends .start, Session.registries_start]

/-- An alias and its definition have one object, and so have two levels that take a name from the library;
a level with a definition of its own and a value that is written in place have others. -/
example : ((Heap.root [("base", .inline 7), ("alias", .named "base")]).run
    (fun name => if name = "blue" then some 9 else none) [
      .use 0 (.named "alias"), .overlay 0 [("base", .inline 7)], .use 1 (.named "alias"),
      .use 1 (.named "blue"), .use 0 (.named "blue"), .use 0 (.named "base"), .use 0 (.inline 7)]).map
        (fun answer => answer.toOption.map fun found => found.value.number) =
    [some 0, some 2, some 4, some 4, some 0, some 7] := by cbv

end Workbook

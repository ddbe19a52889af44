import Workbook.Proofs.AliasWalks
import Workbook.Proofs.Sessions

/-!
# What a memory tells about its past

A session remembers neither the order nor the number of the questions it was asked, but its memory is
determined by them. The counts of a registry add up to the questions by name that it was asked. A name is
remembered where it was asked for with success, and at the root also where a search took it from a library
for whoever asked. A question for a remembered name, and one that fails, shows in one count and nowhere else.

The proofs say once what a question changes in a memory, and carry this through all questions of a session.
-/

namespace Workbook

variable {β : Type}

/-! ## One question -/

namespace Memo

/-- An answer for a name is remembered at a level. -/
def Knows (m : Memo β) (site : Site) (name : String) : Prop := (m.remembered? site name).isSome

variable {m : Memo β} {library : String → Option β} {layers : Layers β} {name : String}

/-- Counting changes nothing about what is known. -/
theorem knows_modify {site : Site} {f : Recollection β → Recollection β} (hf : ∀ r, (f r).found = r.found)
    (other : Site) (asked : String) : (m.modify site f).Knows other asked ↔ m.Knows other asked := by
  rw [Knows, remembered?_modify hf, Knows]

/-- What is remembered is known, and so is what was known before. -/
theorem knows_remember (m : Memo β) (site other : Site) (name asked : String) (answer : Found β) :
    (m.remember site name answer).Knows other asked ↔
      (other = site ∧ asked = name) ∨ m.Knows other asked := by
  rw [Knows, remembered?_remember, Knows]
  split
  · rename_i h
    exact iff_of_true rfl (.inl h)
  · rename_i h
    exact ⟨.inr, fun h' => h'.resolve_left h⟩

/-- Remembering an answer is not counted. -/
theorem counts_remember (m : Memo β) (site other : Site) (name : String) (answer : Found β) :
    ((m.remember site name answer).at? other).hits = (m.at? other).hits ∧
      ((m.remember site name answer).at? other).walks = (m.at? other).walks := by
  rw [remember, at?_modify]
  split
  · rename_i h
    rw [h]
    exact ⟨rfl, rfl⟩
  · exact ⟨rfl, rfl⟩

/-- A search is counted before it begins. -/
theorem counts_search (m : Memo β) (library : String → Option β) (layers : Layers β) (name : String)
    (site : Site) :
    ((m.search library layers name).2.1.at? site).hits = (m.at? site).hits ∧
      ((m.search library layers name).2.1.at? site).walks = (m.at? site).walks := by
  unfold search
  cases layers.walk [] name with
  | circular chain => exact ⟨rfl, rfl⟩
  | value origin last value => exact counts_remember _ _ _ _ _
  | missing chain last =>
    dsimp only
    unfold standard?
    cases m.remembered? [] last with
    | some found => exact counts_remember _ _ _ _ _
    | none =>
      cases library last with
      | none => exact ⟨rfl, rfl⟩
      | some value =>
        dsimp only [Option.map_some]
        rw [(counts_remember _ _ _ _ _).1, (counts_remember _ _ _ _ _).2]
        exact counts_remember _ _ _ _ _

/-- A search without success leaves the memory. -/
theorem search_of_fault {fault : NameFault} (h : (m.search library layers name).1 = .error fault) :
    (m.search library layers name).2.1 = m := by
  unfold search at h ⊢
  cases hw : layers.walk [] name with
  | circular chain => rfl
  | value origin last value =>
    rw [hw] at h
    cases h
  | missing chain last =>
    rw [hw] at h
    dsimp only at h ⊢
    cases hs : m.standard? library last with
    | none => rfl
    | some taken =>
      rw [hs] at h
      cases h

/-- A name that is taken from a library is known at the root from then on. -/
theorem knows_standard? {m' : Memo β} {last : String} {found : Found β} {events : List TraceEvent}
    (h : m.standard? library last = some (found, m', events)) (site : Site) (asked : String) :
    m'.Knows site asked ↔ m.Knows site asked ∨ (site = [] ∧ asked = last ∧ (library last).isSome) := by
  unfold standard? at h
  cases hroot : m.remembered? [] last with
  | some answer =>
    rw [hroot] at h
    cases h
    refine ⟨.inl, fun hor => hor.elim id ?_⟩
    rintro ⟨rfl, rfl, -⟩
    rw [Knows, hroot]
    rfl
  | none =>
    rw [hroot] at h
    obtain ⟨value, hlibrary, heq⟩ := Option.map_eq_some_iff.1 h
    cases heq
    rw [knows_remember, hlibrary, or_comm]
    simp

/-- A name that cannot be taken from a library is in none. -/
theorem library_of_standard?_eq_none {last : String} (h : m.standard? library last = none) :
    library last = none := by
  unfold standard? at h
  cases hroot : m.remembered? [] last with
  | some answer =>
    rw [hroot] at h
    cases h
  | none =>
    rw [hroot] at h
    exact Option.map_eq_none_iff.1 h

/-- A search with success teaches its answer, and the root what it has taken from a library. -/
theorem knows_search (m : Memo β) (library : String → Option β) (layers : Layers β) (name : String)
    (site : Site) (asked : String) :
    (m.search library layers name).2.1.Knows site asked ↔ m.Knows site asked ∨
      (site = layers.site ∧ asked = name ∧ ∃ found, (m.search library layers name).1 = .ok found) ∨
      (site = [] ∧ layers.FallsBack library name asked) := by
  rw [Layers.fallsBack_iff]
  unfold search
  cases layers.walk [] name with
  | circular chain => simp
  | value origin last value => simp [knows_remember, or_comm]
  | missing chain last =>
    have hfalls : ((∃ c, (Landing.missing chain last : Landing β) = .missing c asked) ∧
        (library asked).isSome) ↔ asked = last ∧ (library last).isSome := by
      constructor
      · rintro ⟨⟨_, heq⟩, hlibrary⟩
        cases heq
        exact ⟨rfl, hlibrary⟩
      · rintro ⟨rfl, hlibrary⟩
        exact ⟨⟨chain, rfl⟩, hlibrary⟩
    rw [hfalls]
    dsimp only
    cases hs : m.standard? library last with
    | none => simp [library_of_standard?_eq_none hs]
    | some taken =>
      obtain ⟨found, m', events⟩ := taken
      dsimp only
      rw [knows_remember, knows_standard? hs, or_left_comm]
      simp

/-- A question with a remembered answer is a hit, and that is all. -/
theorem resolve_of_remembered {found : Found β} (h : m.remembered? layers.site name = some found) :
    m.resolve library layers name =
      (.ok found, m.modify layers.site fun r => { r with hits := r.hits + 1 }, [.remembered name]) := by
  rw [resolve, h]

/-- A question without a remembered answer is counted as a walk and searched for. -/
theorem resolve_of_new (h : m.remembered? layers.site name = none) :
    m.resolve library layers name =
      (m.modify layers.site fun r => { r with walks := r.walks + 1 }).search library layers name := by
  rw [resolve, h]

/-- A question with success teaches its answer, and a search the root what it has taken from a library. -/
theorem knows_resolve (m : Memo β) (library : String → Option β) (layers : Layers β) (name : String)
    (site : Site) (asked : String) :
    (m.resolve library layers name).2.1.Knows site asked ↔ m.Knows site asked ∨
      (site = layers.site ∧ asked = name ∧ ∃ found, (m.resolve library layers name).1 = .ok found) ∨
      (site = [] ∧ ¬m.Knows layers.site name ∧ layers.FallsBack library name asked) := by
  cases hr : m.remembered? layers.site name with
  | some found =>
    have hknown : m.Knows layers.site name := by rw [Knows, hr]; rfl
    have hcounted : (m.modify layers.site fun r => { r with hits := r.hits + 1 }).Knows site asked ↔
        m.Knows site asked := knows_modify (by intro r; rfl) site asked
    rw [resolve_of_remembered hr, hcounted]
    refine ⟨.inl, ?_⟩
    rintro (h | ⟨rfl, rfl, -⟩ | ⟨-, hnew, -⟩)
    · exact h
    · exact hknown
    · exact absurd hknown hnew
  | none =>
    have hnew : ¬m.Knows layers.site name := by simp [Knows, hr]
    have hcounted : (m.modify layers.site fun r => { r with walks := r.walks + 1 }).Knows site asked ↔
        m.Knows site asked := knows_modify (by intro r; rfl) site asked
    rw [resolve_of_new hr, knows_search, hcounted]
    simp only [hnew, not_false_eq_true, true_and]

/-- A question is counted once, where it is asked. -/
theorem counts_resolve (m : Memo β) (library : String → Option β) (layers : Layers β) (name : String)
    (site : Site) :
    ((m.resolve library layers name).2.1.at? site).hits +
        ((m.resolve library layers name).2.1.at? site).walks =
      (m.at? site).hits + (m.at? site).walks + if site = layers.site then 1 else 0 := by
  cases hr : m.remembered? layers.site name with
  | some found =>
    rw [resolve_of_remembered hr, at?_modify]
    split
    · rename_i h
      subst h
      exact Nat.add_right_comm _ 1 _
    · rfl
  | none =>
    rw [resolve_of_new hr, (counts_search _ _ _ _ _).1, (counts_search _ _ _ _ _).2, at?_modify]
    split
    · rename_i h
      subst h
      rfl
    · rfl

/-- A question without success is counted as a search, and that is all. -/
theorem resolve_of_fault {fault : NameFault} (h : (m.resolve library layers name).1 = .error fault) :
    (m.resolve library layers name).2.1 =
      m.modify layers.site fun r => { r with walks := r.walks + 1 } := by
  cases hr : m.remembered? layers.site name with
  | some found =>
    rw [resolve_of_remembered hr] at h
    cases h
  | none =>
    rw [resolve_of_new hr] at h ⊢
    exact search_of_fault h

end Memo

namespace Session

/-! ## The questions of a session -/

/-- The level that the registry of a kind in a scope belongs to. Scopes have the same registry when this is
the same level. -/
def registry (s : Session) (n : Nat) (k : Kind) : Site := ((s.scope n).layers k).site

/-- A question by name: the session at the moment when it is asked, the scope that is asked, and for what. -/
structure Question where
  session : Session
  scope : Nat
  kind : Kind
  name : String

namespace Question

/-- The registry that is asked. -/
def registry (q : Question) : Site := q.session.registry q.scope q.kind

/-- The question is one to the registry of a kind at a level. -/
abbrev To (q : Question) (k : Kind) (site : Site) : Prop := q.kind = k ∧ q.registry = site

/-- The answer is a value. -/
def Succeeds (q : Question) : Prop :=
  ∃ found, (q.session.resolve q.scope q.kind q.name).1 = .ok found

/-- The session after the answer. -/
def after (q : Question) : Session := (q.session.resolve q.scope q.kind q.name).2

/-- The answer is not remembered, so it is searched for, and the search ends at a name that it takes from a
library. -/
def FallsBack (q : Question) (last : String) : Prop :=
  q.session.isCached q.scope q.kind q.name = false ∧
    ((q.session.scope q.scope).layers q.kind).FallsBack ((q.session.scope q.scope).standard q.kind)
      q.name last

variable (q : Question)

/-- The memory after a question is the one that its search leaves. -/
theorem memos_after :
    q.after.memos.get q.kind =
      ((q.session.memos.get q.kind).resolve ((q.session.scope q.scope).standard q.kind)
        ((q.session.scope q.scope).layers q.kind) q.name).2.1 :=
  Memos.get_set _ _ _

/-- A question leaves the memories of other kinds. -/
theorem memos_after_of_ne {k : Kind} (h : k ≠ q.kind) : q.after.memos.get k = q.session.memos.get k :=
  Memos.get_set_of_ne _ h _

/-- A question is counted by its registry. -/
theorem counts_after (k : Kind) (site : Site) :
    ((q.after.memos.get k).at? site).hits + ((q.after.memos.get k).at? site).walks =
      ((q.session.memos.get k).at? site).hits + ((q.session.memos.get k).at? site).walks +
        if q.To k site then 1 else 0 := by
  by_cases hk : k = q.kind
  · subst hk
    rw [memos_after, Memo.counts_resolve]
    simp only [To, true_and, eq_comm, registry, Session.registry]
  · rw [memos_after_of_ne q hk, if_neg fun h => hk h.1.symm, Nat.add_zero]

/-- A question teaches its registry its answer, and the root what the search for it has fallen back to. -/
theorem knows_after (k : Kind) (site : Site) (asked : String) :
    (q.after.memos.get k).Knows site asked ↔ (q.session.memos.get k).Knows site asked ∨
      (q.To k site ∧ q.name = asked ∧ q.Succeeds) ∨ (site = [] ∧ q.kind = k ∧ q.FallsBack asked) := by
  by_cases hk : k = q.kind
  · subst hk
    have hcached : q.session.isCached q.scope q.kind q.name = false ↔
        ¬(q.session.memos.get q.kind).Knows q.registry q.name := (Bool.not_eq_true _).symm.to_iff
    rw [memos_after, Memo.knows_resolve, FallsBack, hcached]
    refine or_congr Iff.rfl (or_congr ?_ ?_)
    · exact ⟨fun ⟨hsite, hname, hok⟩ => ⟨⟨rfl, hsite.symm⟩, hname.symm, hok⟩,
        fun ⟨⟨_, hsite⟩, hname, hok⟩ => ⟨hsite.symm, hname.symm, hok⟩⟩
    · exact ⟨fun ⟨hroot, hfalls⟩ => ⟨hroot, rfl, hfalls⟩, fun ⟨hroot, _, hfalls⟩ => ⟨hroot, hfalls⟩⟩
  · rw [memos_after_of_ne q hk]
    have hne : q.kind ≠ k := fun h => hk h.symm
    simp [To, hne]

end Question

/-- The questions by name among requests, in their order. -/
def questions (s : Session) : List Request → List Question
  | [] => []
  | .overlay parent definitions :: rest => questions (s.overlay parent definitions) rest
  | .use n k (.named name) :: rest => ⟨s, n, k, name⟩ :: questions (s.resolve n k name).2 rest
  | .use _ _ (.inline _) :: rest => questions s rest

/-- A memory is what some questions have left of an empty one. -/
structure Records (s : Session) (past : List Question) : Prop where
  /-- Each question is counted where it was asked. -/
  counts : ∀ k site, ((s.memos.get k).at? site).hits + ((s.memos.get k).at? site).walks =
    past.countP fun q => q.To k site
  /-- A name is known where it was asked for with success, and at the root where a search fell back to it. -/
  knows : ∀ k site name, (s.memos.get k).Knows site name ↔
    (∃ q ∈ past, q.To k site ∧ q.name = name ∧ q.Succeeds) ∨
      site = [] ∧ ∃ q ∈ past, q.kind = k ∧ q.FallsBack name

namespace Records

variable {s : Session} {past : List Question}

/-- A session starts without a past. -/
theorem start (definitions : Option Definitions) (options : CompileOptions) :
    (start definitions options).Records [] where
  counts k site := by cases k <;> rfl
  knows k site name := by
    refine iff_of_false (by cases k <;> exact Bool.false_ne_true) ?_
    simp

/-- Opening a scope adds nothing to the past. -/
theorem overlay (h : s.Records past) (parent : Nat) (definitions : Option Definitions) :
    (s.overlay parent definitions).Records past := ⟨h.counts, h.knows⟩

/-- A question adds itself to the past. -/
theorem question {q : Question} (h : q.session.Records past) : q.after.Records (past ++ [q]) where
  counts k site := by
    rw [q.counts_after, h.counts, List.countP_append, List.countP_singleton]
    simp only [decide_eq_true_eq]
  knows k site name := by
    rw [q.knows_after, h.knows]
    simp only [List.mem_append, List.mem_singleton, or_and_right, exists_or, exists_eq_left, and_or_left]
    grind

/-- What is known stays known. -/
theorem knows_of_subset {t : Session} {more : List Question} (ht : t.Records more) (hs : s.Records past)
    (hsub : past ⊆ more) {k : Kind} {site : Site} {name : String} (h : (s.memos.get k).Knows site name) :
    (t.memos.get k).Knows site name := by
  rw [ht.knows]
  refine ((hs.knows k site name).1 h).imp ?_ ?_
  · rintro ⟨q, hq, hasked⟩
    exact ⟨q, hsub hq, hasked⟩
  · rintro ⟨hroot, q, hq, hfalls⟩
    exact ⟨hroot, q, hsub hq, hfalls⟩

/-- What requests leave is recorded by their questions. -/
theorem perform (h : s.Records past) (requests : List Request) :
    (s.perform requests).Records (past ++ s.questions requests) := by
  induction requests generalizing s past with
  | nil =>
    rw [questions, List.append_nil]
    exact h
  | cons request rest ih =>
    cases request with
    | overlay parent definitions => exact ih (h.overlay parent definitions)
    | use n k r =>
      cases r with
      | named name =>
        rw [questions, List.append_cons]
        exact ih (question (q := ⟨s, n, k, name⟩) h)
      | inline value => exact ih h

end Records

/-! ## Questions that teach nothing -/

/-- A question adds to the counts of its registry. All other memories stay as they are, and no memory
learns an answer. -/
structure CountsOnly (s : Session) (n : Nat) (k : Kind) (name : String) (hits walks : Nat) : Prop where
  own : (s.resolve n k name).2.recollection n k =
    { s.recollection n k with
      hits := (s.recollection n k).hits + hits
      walks := (s.recollection n k).walks + walks }
  others : ∀ m k', ¬(k' = k ∧ s.registry m k' = s.registry n k) →
    (s.resolve n k name).2.recollection m k' = s.recollection m k'
  caches : ∀ m k', ((s.resolve n k name).2.recollection m k').found = (s.recollection m k').found

variable {s : Session} {n : Nat} {k : Kind} {name : String}

/-- A question that only counts leaves all memories as they are but for the counts. -/
theorem countsOnly_of_modify {hits walks : Nat}
    (h : ((s.memos.get k).resolve ((s.scope n).standard k) ((s.scope n).layers k) name).2.1 =
      (s.memos.get k).modify (s.registry n k) fun r =>
        { r with hits := r.hits + hits, walks := r.walks + walks }) :
    s.CountsOnly n k name hits walks := by
  have hafter : (s.resolve n k name).2.memos.get k = _ := (Question.memos_after ⟨s, n, k, name⟩).trans h
  have hat (site : Site) : ((s.resolve n k name).2.memos.get k).at? site = _ :=
    (congrArg (Memo.at? · site) hafter).trans (Memo.at?_modify _ _ _ _)
  have hother (m : Nat) {k' : Kind} (hk : k' ≠ k) :
      (s.resolve n k name).2.recollection m k' = s.recollection m k' :=
    congrArg (Memo.at? · (s.registry m k')) (Question.memos_after_of_ne ⟨s, n, k, name⟩ hk)
  refine ⟨(hat (s.registry n k)).trans (if_pos rfl), fun m k' hne => ?_, fun m k' => ?_⟩
  · by_cases hk : k' = k
    · subst hk
      exact (hat (s.registry m k')).trans (if_neg fun hsite => hne ⟨rfl, hsite⟩)
    · exact hother m hk
  · by_cases hk : k' = k
    · subst hk
      refine (congrArg Recollection.found (hat (s.registry m k'))).trans ?_
      split
      · rename_i hsite
        exact congrArg (fun site => ((s.memos.get k').at? site).found) hsite.symm
      · rfl
    · rw [hother m hk]

/-- A name that is remembered is answered and counted. -/
theorem resolve_of_isCached (h : s.isCached n k name = true) :
    (∃ found, (s.resolve n k name).1 = .ok found) ∧ s.CountsOnly n k name 1 0 := by
  obtain ⟨found, hfound⟩ := Option.isSome_iff_exists.1 h
  have hresolve : (s.memos.get k).resolve ((s.scope n).standard k) ((s.scope n).layers k) name = _ :=
    Memo.resolve_of_remembered hfound
  refine ⟨⟨found, congrArg Prod.fst hresolve⟩, countsOnly_of_modify ?_⟩
  exact congrArg (fun r => r.2.1) hresolve

/-- A question without success is counted. -/
theorem countsOnly_of_fault {fault : NameFault} (h : (s.resolve n k name).1 = .error fault) :
    s.CountsOnly n k name 0 1 :=
  countsOnly_of_modify (Memo.resolve_of_fault h)

/-- The memory of a session is determined by the questions it was asked. For each registry, the answers from
memory and the searches are together the questions by name that it was asked. A name is remembered exactly
where an earlier question for it had success, or at the root if an earlier search, made for whichever
registry, ended at it and took it from a library. Once a name is remembered, every question for it there has
success, adds a hit and leaves all that is remembered; and a question that fails adds a search to its own
registry and nothing else. -/
theorem memory_tells_its_past (definitions : Option Definitions) (options : CompileOptions)
    (requests : List Request) (n : Nat) (k : Kind) (name : String) :
    let root := start definitions options
    let s := root.perform requests
    let past := root.questions requests
    (s.recollection n k).hits + (s.recollection n k).walks =
      (past.countP fun q => q.To k (s.registry n k)) ∧
    (s.isCached n k name = true ↔
      (∃ q ∈ past, q.To k (s.registry n k) ∧ q.name = name ∧ q.Succeeds) ∨
        s.shares n 0 k = true ∧ ∃ q ∈ past, q.kind = k ∧ q.FallsBack name) ∧
    (s.isCached n k name = true → ∀ later m, (s.perform later).registry m k = s.registry n k →
      (∃ found, ((s.perform later).resolve m k name).1 = .ok found) ∧
        (s.perform later).CountsOnly m k name 1 0) ∧
    (∀ fault, (s.resolve n k name).1 = .error fault → s.CountsOnly n k name 0 1) := by
  intro root s past
  have hreachable : Reachable definitions options s := Reachable.start.perform requests
  have hrecords : s.Records past := (Records.start definitions options).perform requests
  have hroot : s.shares n 0 k = true ↔ s.registry n k = [] := by
    rw [shares, hreachable.scope_zero, Scope.site_root]
    exact beq_iff_eq
  refine ⟨hrecords.counts k _, ?_, fun hcached later m hsame => ?_, fun fault => countsOnly_of_fault⟩
  · rw [hroot]
    exact hrecords.knows k _ name
  · have hmore : (s.perform later).Records (past ++ s.questions later) := hrecords.perform later
    have hknows : ((s.perform later).memos.get k).Knows ((s.perform later).registry m k) name := by
      rw [hsame]
      exact hmore.knows_of_subset hrecords (List.subset_append_left _ _) hcached
    exact resolve_of_isCached hknows

end Session

end Workbook

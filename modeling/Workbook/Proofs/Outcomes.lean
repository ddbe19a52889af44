import Workbook.Outcome

/-!
# Parts of an outcome

What the value, the issues and the journal of composed work are, in terms of its pieces. Later proofs
read outcomes through these equations and do not open the composition itself. The issues of work stand
at or under the path it is given; the laws of that relation are here, one for each way to compose work.
-/

namespace Workbook

namespace Outcome

variable {α β : Type}

@[simp] theorem value_pure (a : α) : (pure a : Outcome α).value = a := rfl

@[simp] theorem issues_pure (a : α) : (pure a : Outcome α).issues = [] := rfl

@[simp] theorem value_bind (a : Outcome α) (f : α → Outcome β) : (a >>= f).value = (f a.value).value := rfl

@[simp] theorem issues_bind (a : Outcome α) (f : α → Outcome β) :
    (a >>= f).issues = a.issues ++ (f a.value).issues := rfl

@[simp] theorem value_map (f : α → β) (a : Outcome α) : (f <$> a).value = f a.value := rfl

@[simp] theorem issues_map (f : α → β) (a : Outcome α) : (f <$> a).issues = a.issues :=
  List.append_nil a.issues

@[simp] theorem issues_report (i : Issue) : (report i).issues = [i] := rfl

@[simp] theorem issues_record (e : Entry) : (record e).issues = [] := rfl

@[simp] theorem value_ofExcept (r : Except Issue α) : (ofExcept r).value = r.toOption := by
  cases r <;> rfl

/-- A list of reports reports its members in order. -/
@[simp] theorem issues_forM_report (issues : List Issue) :
    (forM issues report : Outcome PUnit).issues = issues := by
  induction issues with
  | nil => rfl
  | cons i rest ih => rw [List.forM_cons, issues_bind, ih, issues_report, List.singleton_append]

end Outcome

/-! ## Results of parts -/

section Results

variable {ε α β : Type} {a : Except ε α}

/-- Work that succeeds has parts that succeed. -/
theorem bind_eq_ok {f : α → Except ε β} {b : β} (h : a >>= f = .ok b) : ∃ x, a = .ok x ∧ f x = .ok b := by
  cases a with
  | error i => cases h
  | ok x => exact ⟨x, rfl, h⟩

/-- Work that fails has a first part that fails, or a second one. -/
theorem bind_eq_error {f : α → Except ε β} {i : ε} (h : a >>= f = .error i) :
    a = .error i ∨ ∃ x, a = .ok x ∧ f x = .error i := by
  cases a with
  | error j =>
    cases h
    exact .inl rfl
  | ok x => exact .inr ⟨x, rfl, h⟩

theorem map_eq_ok {f : α → β} {b : β} (h : a.map f = .ok b) : ∃ x, a = .ok x ∧ f x = b := by
  cases a with
  | error i => cases h
  | ok x => exact ⟨x, rfl, Except.ok.inj h⟩

theorem map_eq_error {f : α → β} {i : ε} (h : a.map f = .error i) : a = .error i := by
  cases a with
  | error j => cases h; rfl
  | ok x => cases h

/-- A result with a mapped error fails with the image of its error. -/
theorem mapError_eq_error {δ : Type} {f : ε → δ} {i : δ} (h : a.mapError f = .error i) :
    ∃ j, a = .error j ∧ f j = i := by
  cases a with
  | error j => cases h; exact ⟨j, rfl, rfl⟩
  | ok x => cases h

/-- What is made of a member is in what is made of a list. -/
theorem exists_mem_of_mapM {f : α → Except ε β} {as : List α} {bs : List β} (h : as.mapM f = .ok bs)
    {a : α} (ha : a ∈ as) : ∃ b ∈ bs, f a = .ok b := by
  induction as generalizing bs with
  | nil => cases ha
  | cons x xs ih =>
    rw [List.mapM_cons] at h
    obtain ⟨y, hy, h⟩ := bind_eq_ok h
    obtain ⟨ys, hys, h⟩ := bind_eq_ok h
    cases h
    obtain rfl | ha := List.mem_cons.1 ha
    · exact ⟨y, List.mem_cons_self, hy⟩
    · obtain ⟨b, hb, hf⟩ := ih hys ha
      exact ⟨b, List.mem_cons_of_mem y hb, hf⟩

/-- Where a list fails, the members before have been made. -/
theorem first_error_of_mapM {f : α → Except ε β} {as : List α} {i : ε} (h : as.mapM f = .error i) :
    ∃ before a after, as = before ++ a :: after ∧ (∀ x ∈ before, ∃ y, f x = .ok y) ∧ f a = .error i := by
  induction as with
  | nil => cases h
  | cons a rest ih =>
    rw [List.mapM_cons] at h
    obtain h | ⟨b, hb, h⟩ := bind_eq_error h
    · exact ⟨[], a, rest, rfl, nofun, h⟩
    · obtain h | ⟨bs, _, h⟩ := bind_eq_error h
      · obtain ⟨before, c, after, hsplit, hmade, hfail⟩ := ih h
        rw [hsplit]
        exact ⟨a :: before, c, after, rfl, List.forall_mem_cons.2 ⟨⟨b, hb⟩, hmade⟩, hfail⟩
      · cases h

/-- A list is made of what is made of its members. -/
theorem mapM_eq_ok {f : α → Except ε β} {g : α → β} {as : List α} (h : ∀ a ∈ as, f a = .ok (g a)) :
    as.mapM f = .ok (as.map g) := by
  induction as with
  | nil => rfl
  | cons a rest ih =>
    rw [List.mapM_cons, h a List.mem_cons_self, ih fun b hb => h b (List.mem_cons_of_mem a hb)]
    rfl

theorem eq_ok_of_toOption {x : α} (h : a.toOption = some x) : a = .ok x := by
  cases a with
  | error i => cases h
  | ok y => exact congrArg Except.ok (Option.some.inj h)

/-- A result that goes on has a value if both steps have. -/
theorem toOption_bind (a : Except ε α) (f : α → Except ε β) :
    (a >>= f).toOption = a.toOption.bind fun x => (f x).toOption := by
  cases a <;> rfl

theorem toOption_map (a : Except ε α) (f : α → β) : (a.map f).toOption = a.toOption.map f := by
  cases a <;> rfl

end Results

/-! ## Where issues stand -/

/-- The issue is about the node at a path, or about a node below it. -/
def Issue.Under (path : Path) (i : Issue) : Prop :=
  ∃ below, i.place = .node ⟨path.segments ++ below⟩

namespace Issue.Under

variable {path : Path} {i : Issue}

/-- What stands under a member stands under what holds it. -/
theorem ofKey {name : String} (h : i.Under (path.key name)) : i.Under path := by
  obtain ⟨below, hp⟩ := h
  exact ⟨.key name :: below, by rw [hp]; simp [Path.key]⟩

/-- What stands under an item stands under its list. -/
theorem ofIndex {n : Nat} (h : i.Under (path.index n)) : i.Under path := by
  obtain ⟨below, hp⟩ := h
  exact ⟨.index n :: below, by rw [hp]; simp [Path.index]⟩

/-- An issue of processing stands under its path. -/
theorem processing (message : String) (path : Path) : (Issue.processing message path).Under path :=
  ⟨[], by simp [Issue.processing, Issue.about]⟩

end Issue.Under

/-- A failure is reported at or under a path. -/
def FailsUnder {α : Type} (path : Path) (r : Except Issue α) : Prop :=
  ∀ i, r = .error i → i.Under path

namespace FailsUnder

variable {α β : Type} {path : Path}

theorem ok (a : α) : FailsUnder path (.ok a : Except Issue α) := by
  intro i h
  cases h

theorem error {i : Issue} (h : i.Under path) : FailsUnder path (.error i : Except Issue α) := by
  intro j hj
  cases hj
  exact h

/-- Steps that fail under a path fail under it one after the other. -/
theorem bind {r : Except Issue α} {f : α → Except Issue β} (hr : FailsUnder path r)
    (hf : ∀ a, FailsUnder path (f a)) : FailsUnder path (r >>= f) := by
  cases r with
  | error i => exact error (hr i rfl)
  | ok a => exact hf a

/-- A mapped result fails under the same path. -/
theorem map {r : Except Issue α} {f : α → β} (hr : FailsUnder path r) : FailsUnder path (r.map f) := by
  cases r with
  | error i => exact error (hr i rfl)
  | ok a => exact ok (f a)

/-- What fails under a member fails under what holds it. -/
theorem ofKey {r : Except Issue α} {name : String} (h : FailsUnder (path.key name) r) :
    FailsUnder path r := fun i hi => (h i hi).ofKey

/-- What fails under an item fails under its list. -/
theorem ofIndex {r : Except Issue α} {n : Nat} (h : FailsUnder (path.index n) r) : FailsUnder path r :=
  fun i hi => (h i hi).ofIndex

/-- Steps that fail under a path fail under it for each item of a list. -/
theorem mapM {f : α → Except Issue β} (hf : ∀ a, FailsUnder path (f a)) (as : List α) :
    FailsUnder path (as.mapM f) := by
  induction as with
  | nil => exact ok []
  | cons a rest ih =>
    rw [List.mapM_cons]
    exact bind (hf a) fun _ => bind ih fun _ => ok _

end FailsUnder

/-- All issues of some work are of a kind. -/
def Outcome.All {α : Type} (P : Issue → Prop) (o : Outcome α) : Prop := ∀ i ∈ o.issues, P i

namespace Outcome.All

variable {α β : Type} {P Q : Issue → Prop}

theorem pure (a : α) : (Pure.pure a : Outcome α).All P := by
  intro i hi
  cases hi

theorem record (e : Entry) : (Outcome.record e).All P := by
  intro i hi
  cases hi

theorem report {i : Issue} (h : P i) : (Outcome.report i).All P := by
  intro j hj
  rw [Outcome.issues_report, List.mem_singleton] at hj
  exact hj ▸ h

/-- Work has issues of a kind if its parts have. -/
theorem bind {a : Outcome α} {f : α → Outcome β} (ha : a.All P) (hf : ∀ x, (f x).All P) :
    (a >>= f).All P := by
  intro i hi
  rw [Outcome.issues_bind, List.mem_append] at hi
  exact hi.elim (ha i) (hf a.value i)

/-- A result that may fail has issues of the kind of its failure. -/
theorem ofExcept {r : Except Issue α} (h : ∀ i, r = .error i → P i) : (Outcome.ofExcept r).All P := by
  cases r with
  | ok a => exact All.pure _
  | error i =>
    intro j hj
    rw [List.mem_singleton.1 hj]
    exact h i rfl

/-- Work on a value that may be missing has issues of a kind if the work has. -/
theorem forOption {f : α → Outcome (Option β)} (hf : ∀ a, (f a).All P) (o : Option α) :
    (Outcome.forOption f o).All P := by
  cases o with
  | none => exact All.pure _
  | some a => exact hf a

/-- Work on each of at most one value has issues of a kind if the work has. -/
theorem mapM {f : α → Outcome β} (hf : ∀ a, (f a).All P) (o : Option α) : (o.mapM f).All P := by
  cases o with
  | none => exact All.pure _
  | some a => exact bind (hf a) fun _ => All.pure _

/-- Issues of a kind are issues of every wider kind. -/
theorem mono {o : Outcome α} (h : o.All P) (hpq : ∀ i, P i → Q i) : o.All Q := fun i hi => hpq i (h i hi)

end Outcome.All

/-- All issues of some work stand at or under a path. -/
abbrev Outcome.Under {α : Type} (path : Path) (o : Outcome α) : Prop := o.All (Issue.Under path)

namespace Outcome.Under

variable {α : Type} {path : Path} {o : Outcome α}

/-- Work that reports under a member reports under what holds it. -/
theorem ofKey {name : String} (h : o.Under (path.key name)) : o.Under path :=
  h.mono fun _ => Issue.Under.ofKey

/-- Work that reports under an item reports under its list. -/
theorem ofIndex {n : Nat} (h : o.Under (path.index n)) : o.Under path :=
  h.mono fun _ => Issue.Under.ofIndex

end Outcome.Under

end Workbook

import Workbook.Json.Reader
import Workbook.Proofs.Codecs.Arranged

/-!
# Trees that are read are in order

The reader puts each member that it has read among those before it. So whatever the order of the members in
a text, and however often a key stands in it, the tree that is read holds them in the order of their keys,
each key once. This is kept by every character: what is open, and what has been read last, is in order.
-/

namespace Workbook.Json

/-- What has been read of a list or an object is in order. -/
def Frame.InOrder : Frame → Prop
  | .list items => ∀ v ∈ items, Arranged v
  | .object members _ => Arranged (.object members)

/-- What a state keeps is in order. -/
def State.InOrder : State → Prop
  | .nextKey members | .colon members _ | .text (.key members) _ _ => Arranged (.object members)
  | .done v | .word _ v => Arranged v
  | _ => True

/-- All that has been read is in order. -/
structure Machine.InOrder (m : Machine) : Prop where
  stack : ∀ f ∈ m.stack, f.InOrder
  state : m.state.InOrder

variable {stack : List Frame} {v : Json} {c : Char} {m next : Machine}

/-- Members stay in order when one more is put into its place. -/
theorem arranged_insertMember {key : String} {members : List (String × Json)} (h : Arranged (.object members))
    (hv : Arranged v) : Arranged (.object (insertMember key v members)) := by
  obtain ⟨hkeys, hmembers⟩ := arranged_object_iff.1 h
  refine .object (pairwise_insertMember key v hkeys) fun m hm => ?_
  obtain rfl | hm := mem_insertMember hm
  · exact hv
  · exact hmembers m hm

/-! ## Values that are read -/

theorem arranged_signed (negative : Bool) (x : Float) : Arranged (signed negative x) := .real _

theorem arranged_wholeValue (negative : Bool) (n : Nat) : Arranged (wholeValue negative n) := by
  unfold wholeValue
  split
  · exact .integer _
  · split
    · exact .integer _
    · exact arranged_signed _ _

/-- The value of a number is arranged. -/
theorem arranged_of_value? {n : NumberState} (h : n.value? = some v) : Arranged v := by
  have hscaled : ∀ o : Option Float, o.map (signed n.negative) = some v → Arranged v := by
    intro o ho
    obtain ⟨x, _, rfl⟩ := Option.map_eq_some_iff.1 ho
    exact arranged_signed _ _
  unfold NumberState.value? at h
  split at h
  · cases h
    exact arranged_signed _ _
  · cases h
    exact arranged_wholeValue _ _
  · split at h
    · exact hscaled _ h
    · cases h
      exact arranged_wholeValue _ _
  · exact hscaled _ h

/-! ## One character -/

/-- A value that has been read is put where it belongs, in order. -/
theorem inOrder_afterValue (hstack : ∀ f ∈ stack, f.InOrder) (hv : Arranged v)
    (h : afterValue stack v c = .ok next) : next.InOrder := by
  unfold afterValue at h
  split at h
  · cases h
    exact ⟨hstack, hv⟩
  · split at h
    · cases h
    · rename_i items outer
      have hitems : ∀ w ∈ v :: items, Arranged w := List.forall_mem_cons.2 ⟨hv, hstack _ List.mem_cons_self⟩
      have houter : ∀ f ∈ outer, f.InOrder := fun f hf => hstack f (List.mem_cons_of_mem _ hf)
      split at h
      · cases h
        exact ⟨List.forall_mem_cons.2 ⟨hitems, houter⟩, trivial⟩
      · split at h
        · cases h
          exact ⟨houter, .list fun w hw => hitems w (List.mem_reverse.1 hw)⟩
        · cases h
    · rename_i members key outer
      have hmembers : Arranged (.object (insertMember key v members)) :=
        arranged_insertMember (hstack _ List.mem_cons_self) hv
      have houter : ∀ f ∈ outer, f.InOrder := fun f hf => hstack f (List.mem_cons_of_mem _ hf)
      split at h
      · cases h
        exact ⟨houter, hmembers⟩
      · split at h
        · cases h
          exact ⟨houter, hmembers⟩
        · cases h

/-- The start of a value keeps the order. -/
theorem inOrder_startValue (hstack : ∀ f ∈ stack, f.InOrder) (h : startValue stack c = .ok next) :
    next.InOrder := by
  have hempty : Frame.InOrder (.list []) := fun v hv => nomatch hv
  simp only [startValue, refuse] at h
  repeat' split at h
  all_goals
    cases h
    try exact ⟨hstack, trivial⟩
  · exact ⟨List.forall_mem_cons.2 ⟨hempty, hstack⟩, trivial⟩
  · exact ⟨hstack, .boolean true⟩
  · exact ⟨hstack, .boolean false⟩
  · exact ⟨hstack, .null⟩

/-- The end of a text keeps the order. -/
theorem inOrder_closeText {chars : List Char} {role : TextRole} {phase : TextPhase}
    (hstack : ∀ f ∈ stack, f.InOrder) (h : (State.text role chars phase).InOrder) :
    (closeText stack chars role).InOrder := by
  cases role with
  | value => exact ⟨hstack, .text _⟩
  | key members => exact ⟨hstack, h⟩

/-- A character of a text keeps the order. -/
theorem inOrder_inText {role : TextRole} {chars : List Char} {phase : TextPhase}
    (hstack : ∀ f ∈ stack, f.InOrder) (hrole : (State.text role chars phase).InOrder)
    (h : inText stack role chars phase c = .ok next) : next.InOrder := by
  have hsame : ∀ chars phase, (State.text role chars phase).InOrder := by
    intro chars phase
    cases role with
    | value => trivial
    | key members => exact hrole
  simp only [inText, refuse] at h
  repeat' split at h
  all_goals
    cases h
    try exact ⟨hstack, hsame _ _⟩
  exact inOrder_closeText hstack hrole

/-- The end of a number keeps the order. -/
theorem inOrder_afterNumber {n : NumberState} (hstack : ∀ f ∈ stack, f.InOrder)
    (h : afterNumber stack n c = .ok next) : next.InOrder := by
  unfold afterNumber at h
  split at h
  · rename_i v hvalue
    exact inOrder_afterValue hstack (arranged_of_value? hvalue) h
  · cases h

/-- A character of a number keeps the order. -/
theorem inOrder_inNumber {n : NumberState} (hstack : ∀ f ∈ stack, f.InOrder)
    (h : inNumber stack n c = .ok next) : next.InOrder := by
  simp only [inNumber, refuse] at h
  repeat' split at h
  all_goals first
    | exact inOrder_afterNumber hstack h
    | (cases h; exact ⟨hstack, trivial⟩)
    | cases h

/-- One character keeps in order what has been read. -/
theorem Machine.InOrder.step (hm : m.InOrder) (h : m.step c = .ok next) : next.InOrder := by
  obtain ⟨stack, state⟩ := m
  obtain ⟨hstack, hstate⟩ := hm
  cases state with
  | value =>
    simp only [Machine.step] at h
    split at h
    · cases h
      exact ⟨hstack, hstate⟩
    · exact inOrder_startValue hstack h
  | firstItem =>
    simp only [Machine.step] at h
    split at h
    · cases h
      exact ⟨hstack, hstate⟩
    · split at h
      · cases h
        exact ⟨fun f hf => hstack f (List.mem_of_mem_tail hf), .list fun v hv => nomatch hv⟩
      · exact inOrder_startValue hstack h
  | nextItem =>
    simp only [Machine.step, refuse] at h
    split at h
    · cases h
      exact ⟨hstack, hstate⟩
    · split at h
      · cases h
      · exact inOrder_startValue hstack h
  | firstKey =>
    have hempty : Arranged (.object []) := .object .nil fun m hm => nomatch hm
    simp only [Machine.step, refuse] at h
    repeat' split at h
    all_goals cases h
    · exact ⟨hstack, hstate⟩
    · exact ⟨hstack, hempty⟩
    · exact ⟨hstack, hempty⟩
  | nextKey members =>
    simp only [Machine.step, refuse] at h
    repeat' split at h
    all_goals cases h
    · exact ⟨hstack, hstate⟩
    · exact ⟨hstack, hstate⟩
  | colon members key =>
    simp only [Machine.step, refuse] at h
    repeat' split at h
    all_goals cases h
    · exact ⟨hstack, hstate⟩
    · exact ⟨List.forall_mem_cons.2 ⟨hstate, hstack⟩, trivial⟩
  | done v => exact inOrder_afterValue hstack hstate h
  | word rest v =>
    simp only [Machine.step, refuse] at h
    split at h
    · exact inOrder_afterValue hstack hstate h
    · split at h
      · cases h
        exact ⟨hstack, hstate⟩
      · cases h
    · split at h
      · cases h
        exact ⟨hstack, hstate⟩
      · cases h
  | text role chars phase => exact inOrder_inText hstack hstate h
  | number n => exact inOrder_inNumber hstack h

/-! ## Texts -/

/-- The value that a text ends with is arranged. -/
theorem arranged_of_endAfterValue {w : Json} (hv : Arranged v) (h : endAfterValue stack v = .ok w) :
    Arranged w := by
  unfold endAfterValue at h
  split at h
  · cases h
    exact hv
  · cases h
  · cases h

/-- What is read in order ends with an arranged value. -/
theorem Machine.InOrder.finish (hm : m.InOrder) (h : m.finish = .ok v) : Arranged v := by
  obtain ⟨stack, state⟩ := m
  cases state with
  | done w => exact arranged_of_endAfterValue hm.state h
  | number n =>
    simp only [Machine.finish] at h
    repeat' split at h
    all_goals first
      | exact arranged_of_endAfterValue (arranged_of_value? (by assumption)) h
      | cases h
  | _ => cases h

/-- What is read from any characters is arranged. -/
theorem Machine.InOrder.run (hm : m.InOrder) {place : Nat} {cs : List Char} (h : m.run place cs = .ok v) :
    Arranged v := by
  induction cs generalizing m place with
  | nil =>
    rw [Machine.run] at h
    cases hfinish : m.finish with
    | error flaw =>
      rw [hfinish] at h
      cases h
    | ok w =>
      rw [hfinish] at h
      cases h
      exact hm.finish hfinish
  | cons c rest ih =>
    rw [Machine.run] at h
    split at h
    · rename_i next hstep
      exact ih (hm.step hstep) h
    · split at h <;> cases h

/-- The members of a tree that was read from a text stand in the order of their keys. -/
theorem arranged_of_read {text : String} (h : read text = .ok v) : Arranged v := by
  have hstart : Machine.start.InOrder := ⟨fun f hf => absurd hf List.not_mem_nil, trivial⟩
  exact hstart.run h

end Workbook.Json

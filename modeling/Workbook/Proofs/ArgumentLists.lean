import Mathlib.Data.Option.Basic
import Workbook.CommandLine
import Workbook.Proofs.Outcomes

/-!
# Lists of arguments

Arguments are taken one after another. An argument that asks for metrics, or for more lines of the log, may be
put anywhere in a list of them. Unless the longer list is refused, what it asks for is the same but for these
lines. The proof runs along both lists at once: drafts that differ in these lines only keep doing so.
-/

namespace Workbook.CommandLine

/-! ## Readings of two lists -/

section Related

variable {α β γ δ : Type} {R : α → β → Prop} {S : γ → δ → Prop} {r : Except Notice α} {r' : Except Notice β}

/-- What two readings lead to is related, unless one of them is settled early. -/
def Related (R : α → β → Prop) (r : Except Notice α) (r' : Except Notice β) : Prop :=
  ∀ a b, r = .ok a → r' = .ok b → R a b

theorem Related.ok {a : α} {b : β} (h : R a b) : Related R (.ok a) (.ok b) := by
  rintro _ _ ⟨⟩ ⟨⟩
  exact h

/-- A reading that is settled early is related to any other. -/
theorem Related.settled (notice : Notice) : Related R (.error notice) r' := by
  rintro _ _ ⟨⟩

/-- Any reading is related to one that is settled early. -/
theorem Related.settled_right (notice : Notice) : Related R r (.error notice) := by
  rintro _ _ _ ⟨⟩

/-- Related readings that go on in related ways stay related. -/
theorem Related.bind {f : α → Except Notice γ} {g : β → Except Notice δ} (h : Related R r r')
    (next : ∀ a b, R a b → Related S (f a) (g b)) : Related S (r >>= f) (r' >>= g) := by
  intro c d hc hd
  obtain ⟨a, ha, hc⟩ := bind_eq_ok hc
  obtain ⟨b, hb, hd⟩ := bind_eq_ok hd
  exact next a b (h a b ha hb) c d hc hd

/-- Related readings stay related when their results are mapped to related ones. -/
theorem Related.map {f : α → γ} {g : β → δ} (h : Related R r r') (next : ∀ a b, R a b → S (f a) (g b)) :
    Related S (r.map f) (r'.map g) := by
  intro c d hc hd
  cases r with
  | error _ => cases hc
  | ok a =>
    cases r' with
    | error _ => cases hd
    | ok b =>
      cases hc
      cases hd
      exact next a b (h a b rfl rfl)

/-- A relation that every step keeps is kept by a run. -/
theorem Related.foldlM {f : α → String → Except Notice α} {R : α → α → Prop} {a b : α} (h : R a b)
    (step : ∀ a b, R a b → ∀ arg, Related R (f a arg) (f b arg)) (args : List String) :
    Related R (args.foldlM f a) (args.foldlM f b) := by
  induction args generalizing a b with
  | nil => exact .ok h
  | cons arg args ih =>
    rw [List.foldlM_cons, List.foldlM_cons]
    exact (step a b h arg).bind fun _ _ => ih

end Related

/-- Arguments that ask for metrics or for more lines of the log. -/
def lineSwitches : List String := ["-v", "--verbose", "--metrics"]

/-! ## Drafts of one run -/

/-- Two drafts are the same but for the lines that they ask for. -/
structure Draft.Alike (d e : Draft) : Prop where
  input : d.input = e.input
  output : d.output = e.output
  check : d.check = e.check
  compact : d.compact = e.compact
  noStandardPalette : d.noStandardPalette = e.noStandardPalette
  noStandardFormats : d.noStandardFormats = e.noStandardFormats

namespace Draft

variable {d e : Draft}

/-- Asking for other lines leaves a draft alike. -/
theorem alike_lines (d : Draft) (metrics : Bool) (verbosity : Nat) : d.Alike { d with metrics, verbosity } :=
  ⟨rfl, rfl, rfl, rfl, rfl, rfl⟩

/-- A switch that is turned on in two drafts that are alike afterwards leaves related readings. -/
theorem Alike.switch {was was' : Bool} {d' e' : Draft} (h : d'.Alike e') :
    Related Alike (Draft.switch was d') (Draft.switch was' e') := by
  unfold Draft.switch
  split
  · exact .settled _
  · split
    · exact .settled_right _
    · exact .ok h

/-- Drafts that are alike stay so with one more input file. -/
theorem Alike.addInput (h : d.Alike e) (path : String) : Related Alike (d.addInput path) (e.addInput path) := by
  unfold Draft.addInput
  rw [h.input]
  split
  · exact .settled _
  · exact .ok { h with input := rfl }

/-- Drafts that are alike stay so with one more output file. -/
theorem Alike.addOutput (h : d.Alike e) (path : String) : Related Alike (d.addOutput path) (e.addOutput path) := by
  unfold Draft.addOutput
  rw [h.output]
  split
  · exact .settled _
  · exact .ok { h with output := rfl }

/-- Drafts that are alike stay so with the argument that an output file is expected in. -/
theorem Alike.outputNext (h : d.Alike e) (arg : String) : Related Alike (d.outputNext arg) (e.outputNext arg) := by
  unfold Draft.outputNext
  split
  · exact .settled _
  · exact h.addOutput arg

/-- Drafts that are alike stay so with one more long argument. -/
theorem Alike.addLong (h : d.Alike e) (name : String) : Related Alike (d.addLong name) (e.addLong name) := by
  unfold Draft.addLong
  split
  · exact .switch { h with check := rfl }
  · exact .switch { h with compact := rfl }
  · exact .switch { h with }
  · exact .switch { h with noStandardPalette := rfl }
  · exact .switch { h with noStandardFormats := rfl }
  · exact .ok { h with }
  all_goals exact .settled _

/-- An output file may stand after its letter, at once or after an equals sign. -/
theorem addShort_output (c : Char) (cs : List Char) : ∃ path, ∀ d : Draft,
    d.addShort ('o' :: c :: cs) = (d.addOutput path).map (·, false) := by
  by_cases hc : c = '='
  · subst hc
    exact ⟨_, fun d => rfl⟩
  · refine ⟨String.ofList (c :: cs), fun d => ?_⟩
    unfold Draft.addShort
    split <;> simp_all

/-- Short switches leave the same to come. -/
theorem Alike.addShort (h : d.Alike e) (cs : List Char) :
    Related (fun a b => a.1.Alike b.1 ∧ a.2 = b.2) (d.addShort cs) (e.addShort cs) := by
  induction cs generalizing d e with
  | nil => exact .ok ⟨h, rfl⟩
  | cons c cs ih =>
    by_cases known : c ∈ ['v', 'V', 'h', 'o']
    · simp only [List.mem_cons, List.not_mem_nil, or_false] at known
      obtain rfl | rfl | rfl | rfl := known
      · exact ih { h with }
      · exact .settled _
      · exact .settled _
      · cases cs with
        | nil => exact .ok ⟨h, rfl⟩
        | cons c cs =>
          obtain ⟨path, shown⟩ := addShort_output c cs
          rw [shown, shown]
          exact (h.addOutput path).map fun _ _ alike => ⟨alike, rfl⟩
    · have refused (d : Draft) : d.addShort (c :: cs) = .error .refused := by
        unfold Draft.addShort
        split <;> simp_all
      rw [refused]
      exact .settled _

/-! ## Steps -/

/-- Drafts of one run, of which the same is awaited. -/
def AlikeAt (s t : Draft × Awaited) : Prop := s.1.Alike t.1 ∧ s.2 = t.2

/-- Drafts that are alike stay so with one more argument of any kind. -/
theorem AlikeAt.take {s t : Draft × Awaited} (h : AlikeAt s t) (arg : String) :
    Related AlikeAt (take s arg) (take t arg) := by
  obtain ⟨d, awaited⟩ := s
  obtain ⟨e, _⟩ := t
  obtain ⟨alike, rfl⟩ := h
  have same (w : Awaited) {r r' : Reading} (related : Related Alike r r') :
      Related AlikeAt (r.map (·, w)) (r'.map (·, w)) := related.map fun _ _ alike => ⟨alike, rfl⟩
  cases awaited with
  | output => exact same _ (alike.outputNext arg)
  | files => exact same _ (alike.addInput arg)
  | anything =>
    simp only [Draft.take]
    split
    · exact .ok ⟨alike, rfl⟩
    · split
      · split
        · exact same _ (alike.addOutput _)
        · exact .settled _
      · split
        · exact .ok ⟨alike, rfl⟩
        · exact same _ (alike.addLong _)
    · exact (alike.addShort _).map fun a b related => ⟨related.1, by rw [related.2]⟩
    · exact same _ (alike.addInput arg)

/-! ## Arguments that ask for lines -/

/-- The second of two drafts has taken one argument more. It was a switch for lines, or else it was taken for the
input file, which the first draft still lacks. -/
def Ahead (s t : Draft × Awaited) : Prop :=
  AlikeAt s t ∨ s.1.input = none ∧ t.1.input.isSome ∧ s.2 = .files ∧ t.2 = .files

/-- A draft that is ahead of another stays ahead when both take one more argument. -/
theorem Ahead.take {s t : Draft × Awaited} (h : Ahead s t) (arg : String) :
    Related Ahead (Draft.take s arg) (Draft.take t arg) := by
  obtain alike | ⟨-, full, -, files⟩ := h
  · exact fun a b ha hb => .inl (alike.take arg a b ha hb)
  · obtain ⟨e, _⟩ := t
    obtain rfl : _ = Awaited.files := files
    -- there is no second input file
    have second : Draft.take (e, .files) arg = .error .refused := by
      rw [Draft.take, Draft.addInput, if_pos full]
      rfl
    rw [second]
    exact .settled_right _

/-- A switch for lines is taken as such, or for a file where nothing else may come. -/
theorem ahead_of_lineSwitch {flag : String} (hflag : flag ∈ lineSwitches) (s : Draft × Awaited) :
    Related Ahead (.ok s) (Draft.take s flag) := by
  obtain ⟨d, awaited⟩ := s
  simp only [lineSwitches, List.mem_cons, List.not_mem_nil, or_false] at hflag
  cases awaited with
  | output =>
    have refused : d.outputNext flag = .error .refused := by
      obtain rfl | rfl | rfl := hflag <;> rfl
    rw [Draft.take, refused]
    exact .settled_right _
  | files =>
    rw [Draft.take, Draft.addInput]
    split
    · exact .settled_right _
    · rename_i empty
      exact .ok (.inr ⟨Option.not_isSome_iff_eq_none.1 empty, rfl, rfl, rfl⟩)
  | anything =>
    obtain rfl | rfl | rfl := hflag
    · exact .ok (.inl ⟨d.alike_lines _ _, rfl⟩)
    · exact .ok (.inl ⟨d.alike_lines _ _, rfl⟩)
    · have metrics : Draft.take (d, .anything) "--metrics" =
          (Draft.switch d.metrics { d with metrics := true }).map (·, .anything) := rfl
      rw [metrics, Draft.switch]
      split
      · exact .settled_right _
      · exact .ok (.inl ⟨d.alike_lines _ _, rfl⟩)

/-- Closing a draft leaves it as it is. -/
theorem fst_of_close {s : Draft × Awaited} {d : Draft} (h : close s = .ok d) : s.1 = d := by
  obtain ⟨_, awaited⟩ := s
  cases awaited <;> cases h <;> rfl

/-- Lists of arguments of which one has a switch for lines more are read alike, unless the shorter one has no
input file. -/
theorem read_lineSwitch {flag : String} (hflag : flag ∈ lineSwitches) (before after : List String) :
    Related (fun d e => d.input.isSome → d.Alike e) (({} : Draft).read (before ++ after))
      (({} : Draft).read (before ++ flag :: after)) := by
  have runs : Related Ahead ((before ++ after).foldlM Draft.take ({}, .anything))
      ((before ++ flag :: after).foldlM Draft.take ({}, .anything)) := by
    rw [List.foldlM_append, List.foldlM_append]
    refine Related.bind (R := Eq) (fun a b ha hb => ?_) ?_
    · exact Except.ok.inj (ha.symm.trans hb)
    · rintro s _ rfl
      rw [List.foldlM_cons]
      intro a b ha hb
      obtain ⟨t, ht, hb⟩ := bind_eq_ok hb
      exact Related.foldlM (ahead_of_lineSwitch hflag s s t rfl ht) (fun _ _ h => h.take) after a b ha hb
  refine runs.bind fun s t ahead d e hd he input => ?_
  obtain rfl := fst_of_close hd
  obtain rfl := fst_of_close he
  obtain alike | ⟨lost, -, -, -⟩ := ahead
  · exact alike.1
  · rw [lost] at input
    cases input

end Draft

/-- Two runs are the same but for the lines that they print. -/
def Invocation.Alike (i j : Invocation) : Prop :=
  j = { i with metrics := j.metrics, verbosity := j.verbosity }

/-- A switch for lines that is put anywhere in a list of arguments changes nothing else, unless the longer list
is refused. -/
theorem alike_of_lineSwitch {flag : String} {before after : List String} {i j : Invocation}
    (hflag : flag ∈ lineSwitches) (hi : parse (before ++ after) = .ok i)
    (hj : parse (before ++ flag :: after) = .ok j) : i.Alike j := by
  refine (Draft.read_lineSwitch hflag before after).bind (S := Invocation.Alike) (fun d e alike => ?_) i j hi hj
  cases input : d.input with
  | none =>
    rw [Draft.invocation, input]
    exact .settled _
  | some path =>
    obtain ⟨input', output, check, compact, palette, formats⟩ := alike (by rw [input]; rfl)
    rw [Draft.invocation, Draft.invocation, ← input', input]
    refine .ok ?_
    simp only [Invocation.Alike, output, check, compact, palette, formats]

end Workbook.CommandLine

import Mathlib.Data.List.SplitBy
import Workbook.Formula

/-!
# The runs of a text

A text has a formula of quoted strings and calls of `CHAR`. No quoted string holds one of four characters,
so the text is cut on both sides of each of these, and nowhere else. The runs of the text are the parts that
it falls into.
-/

namespace Workbook

namespace Formula

/-! ## Cutting a text -/

/-- The codes of tab, line feed, carriage return and quote. -/
def codes : List Nat := [9, 10, 13, 34]

/-- Two characters may stand side by side in a quoted string. -/
def sideBySide (a b : Char) : Bool := a.toNat ∉ codes ∧ b.toNat ∉ codes

/-- The parts of a text that is cut wherever two characters may not stand in one quoted string. -/
def textParts (cs : List Char) : List (List Char) := cs.splitBy sideBySide

/-- The characters that are written as calls are those with the codes. -/
theorem isCoded_iff {c : Char} : isCoded c = true ↔ c.toNat ∈ codes := by
  have hchar (d : Char) : c = d ↔ c.toNat = d.toNat := Char.toNat_inj.symm
  simp only [isCoded, codes, Bool.or_eq_true, beq_iff_eq, hchar, List.mem_cons, List.not_mem_nil, or_false,
    or_assoc]
  rfl

/-! ## Runs -/

namespace TextRun

/-- The characters that a run stands for. -/
def content : TextRun → List Char
  | .plain cs => cs
  | .code c => [c]

/-- A quoted string holds no character with one of the codes, and `CHAR` is called with one of them. -/
def Allowed : TextRun → Prop
  | .plain cs => ∀ c ∈ cs, c.toNat ∉ codes
  | .code c => c.toNat ∈ codes

/-- Of two runs one is a call. -/
def Apart (r r' : TextRun) : Prop := ∃ c, r = .code c ∨ r' = .code c

/-- The characters of a run may stand side by side. -/
theorem Allowed.isChain {r : TextRun} (h : r.Allowed) : r.content.IsChain fun a b => sideBySide a b = true := by
  cases r with
  | plain cs =>
    refine (List.pairwise_of_forall_mem_list fun a ha b hb => ?_).isChain
    exact decide_eq_true ⟨h a ha, h b hb⟩
  | code c => exact .singleton c

/-- The last character of a run and the first of one that is apart from it may not stand side by side. -/
theorem Apart.sideBySide_eq_false {r r' : TextRun} (h : r.Apart r') (hr : r.Allowed) (hr' : r'.Allowed)
    (ha : r.content ≠ []) (hb : r'.content ≠ []) :
    sideBySide (r.content.getLast ha) (r'.content.head hb) = false := by
  obtain ⟨c, rfl | rfl⟩ := h
  · exact decide_eq_false fun hside => hside.1 hr
  · exact decide_eq_false fun hside => hside.2 hr'

end TextRun

/-- A character in front of some runs is coded, or joins the first run, or is a run in front of no run or of a
call. -/
theorem consRun_cases (c : Char) (runs : List TextRun) :
    (isCoded c = true ∧ consRun c runs = .code c :: runs) ∨
    (isCoded c = false ∧
      ((∃ cs rest, runs = .plain cs :: rest ∧ consRun c runs = .plain (c :: cs) :: rest) ∨
        ((∀ r ∈ runs.head?, ∃ d, r = .code d) ∧ consRun c runs = .plain [c] :: runs))) := by
  unfold consRun
  cases hc : isCoded c with
  | true => exact .inl ⟨rfl, if_pos rfl⟩
  | false =>
    refine .inr ⟨rfl, ?_⟩
    rw [if_neg Bool.false_ne_true]
    cases runs with
    | nil => exact .inr ⟨nofun, rfl⟩
    | cons r rest =>
      cases r with
      | plain cs => exact .inl ⟨cs, rest, rfl, rfl⟩
      | code d => exact .inr ⟨fun r hr => ⟨d, (Option.mem_some.1 hr).symm⟩, rfl⟩

/-- What holds of coded characters, of single plain characters and of a plain run after one more plain
character holds of the runs of a text. -/
theorem forall_textRuns {P : TextRun → Prop} (code : ∀ c, isCoded c = true → P (.code c))
    (single : ∀ c, isCoded c = false → P (.plain [c]))
    (more : ∀ c cs, isCoded c = false → P (.plain cs) → P (.plain (c :: cs))) (cs : List Char) :
    ∀ r ∈ textRuns cs, P r := by
  induction cs with
  | nil => exact nofun
  | cons c cs ih =>
    have hruns : textRuns (c :: cs) = consRun c (textRuns cs) := rfl
    obtain ⟨hc, heq⟩ | ⟨hc, ⟨ds, rest, hsplit, heq⟩ | ⟨-, heq⟩⟩ := consRun_cases c (textRuns cs)
    · rw [hruns, heq]
      exact List.forall_mem_cons.2 ⟨code c hc, ih⟩
    · rw [hsplit] at ih
      obtain ⟨hds, hrest⟩ := List.forall_mem_cons.1 ih
      rw [hruns, heq]
      exact List.forall_mem_cons.2 ⟨more c ds hc hds, hrest⟩
    · rw [hruns, heq]
      exact List.forall_mem_cons.2 ⟨single c hc, ih⟩

/-! ## The runs of a text are its parts -/

/-- The runs of a text are quoted strings without coded characters, and calls of these. -/
theorem allowed_textRuns (cs : List Char) : ∀ r ∈ textRuns cs, r.Allowed := by
  have hplain {c : Char} (hc : isCoded c = false) : c.toNat ∉ codes := by
    rwa [← Bool.not_eq_true, isCoded_iff] at hc
  refine forall_textRuns (fun c hc => isCoded_iff.1 hc) (fun c hc => ?_) (fun c ds hc hds => ?_) cs
  · intro d hd
    rw [List.mem_singleton.1 hd]
    exact hplain hc
  · intro d hd
    obtain rfl | hd := List.mem_cons.1 hd
    · exact hplain hc
    · exact hds d hd

/-- Every run of a text stands for some characters. -/
theorem content_ne_nil (cs : List Char) : ∀ r ∈ textRuns cs, r.content ≠ [] :=
  forall_textRuns (fun _ _ => List.cons_ne_nil _ _) (fun _ _ => List.cons_ne_nil _ _)
    (fun _ _ _ _ => List.cons_ne_nil _ _) cs

/-- A character in front of some runs stands in front of what they stand for. -/
theorem content_consRun (c : Char) (runs : List TextRun) :
    (consRun c runs).flatMap TextRun.content = c :: runs.flatMap TextRun.content := by
  obtain ⟨-, heq⟩ | ⟨-, ⟨cs, rest, rfl, heq⟩ | ⟨-, heq⟩⟩ := consRun_cases c runs
  · rw [heq]
    rfl
  · rw [heq]
    rfl
  · rw [heq]
    rfl

/-- The runs of a text stand for its characters. -/
theorem content_textRuns (cs : List Char) : (textRuns cs).flatMap TextRun.content = cs := by
  induction cs with
  | nil => rfl
  | cons c cs ih =>
    have hcons := content_consRun c (textRuns cs)
    rw [ih] at hcons
    exact hcons

/-- No two quoted strings follow each other in the runs of a text. -/
theorem isChain_textRuns (cs : List Char) : (textRuns cs).IsChain TextRun.Apart := by
  induction cs with
  | nil => exact .nil
  | cons c cs ih =>
    have hruns : textRuns (c :: cs) = consRun c (textRuns cs) := rfl
    rw [hruns]
    obtain ⟨-, heq⟩ | ⟨-, ⟨ds, rest, hsplit, heq⟩ | ⟨hcall, heq⟩⟩ := consRun_cases c (textRuns cs)
    · rw [heq, List.isChain_cons]
      exact ⟨fun r _ => ⟨c, .inl rfl⟩, ih⟩
    · rw [hsplit, List.isChain_cons] at ih
      rw [heq, List.isChain_cons]
      refine ⟨fun r hr => ?_, ih.2⟩
      obtain ⟨d, hplain | hcall⟩ := ih.1 r hr
      · cases hplain
      · exact ⟨d, .inr hcall⟩
    · rw [heq, List.isChain_cons]
      refine ⟨fun r hr => ?_, ih⟩
      obtain ⟨d, hd⟩ := hcall r hr
      exact ⟨d, .inr hd⟩

/-- The runs of a text stand for the parts that it falls into. -/
theorem textParts_eq (cs : List Char) : textParts cs = (textRuns cs).map TextRun.content := by
  refine List.splitBy_eq_iff.2 ⟨?_, ?_, ?_, ?_⟩
  · rw [← List.flatMap_def, content_textRuns]
  · intro hnil
    obtain ⟨r, hr, hempty⟩ := List.mem_map.1 hnil
    exact content_ne_nil cs r hr hempty
  · intro part hpart
    obtain ⟨r, hr, rfl⟩ := List.mem_map.1 hpart
    exact (allowed_textRuns cs r hr).isChain
  · rw [List.isChain_map]
    refine (isChain_textRuns cs).imp_of_mem_imp fun r r' hr hr' hapart => ?_
    exact ⟨content_ne_nil cs r hr, content_ne_nil cs r' hr',
      hapart.sideBySide_eq_false (allowed_textRuns cs r hr) (allowed_textRuns cs r' hr') _ _⟩

end Formula

end Workbook

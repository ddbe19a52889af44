import Mathlib.Data.List.TakeWhile
import Workbook.Proofs.Grammar.Scanning

/-!
# Texts without the blanks around them

What it is for a text to be another one without the blanks around it, said by its parts and not by a reader
that cuts them off. Every text has exactly one such inside.
-/

namespace Workbook.Text

/-- A text is what stands between the blanks at both ends of another one. -/
structure Trims (cs inside : List Char) : Prop where
  between : ∃ before after, cs = before ++ (inside ++ after) ∧
    (∀ c ∈ before, isBlank c) ∧ ∀ c ∈ after, isBlank c
  starts : StopsAt isBlank inside
  ends : StopsAt isBlank inside.reverse

variable {cs inside : List Char}

/-- A class stops where its characters have been dropped. -/
theorem stopsAt_dropWhile (test : Char → Bool) (cs : List Char) : StopsAt test (cs.dropWhile test) := by
  intro c hc
  have hstop := List.head?_dropWhile_not test cs
  rw [Option.mem_def.1 hc] at hstop
  exact hstop

/-- Trimming takes the blanks around a text away. -/
theorem trims_trim (cs : List Char) : Trims cs (trim cs) := by
  have hfront : cs.takeWhile isBlank ++ cs.dropWhile isBlank = cs := List.takeWhile_append_dropWhile
  generalize hrest : cs.dropWhile isBlank = rest at hfront
  have hback : trim cs ++ (rest.reverse.takeWhile isBlank).reverse = rest := by
    rw [trim, hrest, ← List.reverse_append, List.takeWhile_append_dropWhile, List.reverse_reverse]
  refine ⟨⟨cs.takeWhile isBlank, (rest.reverse.takeWhile isBlank).reverse, ?_, ?_, ?_⟩, ?_, ?_⟩
  · rw [hback, hfront]
  · exact fun c hc => List.mem_takeWhile_imp hc
  · exact fun c hc => List.mem_takeWhile_imp (List.mem_reverse.1 hc)
  · -- what is left begins like the text without its first blanks
    intro c hc
    have hstart := stopsAt_dropWhile isBlank cs
    rw [hrest, ← hback] at hstart
    refine hstart c ?_
    rw [List.head?_append, Option.mem_def.1 hc]
    rfl
  · rw [trim, List.reverse_reverse]
    exact stopsAt_dropWhile isBlank _

/-- What is left without the blanks around a text is the trimmed text. -/
theorem Trims.eq_trim (h : Trims cs inside) : inside = trim cs := by
  obtain ⟨⟨before, after, rfl, hbefore, hafter⟩, starts, ends⟩ := h
  have hdropped : (before ++ (inside ++ after)).dropWhile isBlank = (inside ++ after).dropWhile isBlank :=
    List.dropWhile_append_of_pos hbefore
  rw [trim, hdropped]
  cases inside with
  | nil =>
    have hall : after.dropWhile isBlank = [] := List.dropWhile_eq_nil_iff.2 hafter
    rw [List.nil_append, hall]
    rfl
  | cons c rest =>
    have hfront : StopsAt isBlank (c :: rest ++ after) := starts
    have hback : ∀ d ∈ after.reverse, isBlank d := fun d hd => hafter d (List.mem_reverse.1 hd)
    rw [dropWhile_of_stopsAt hfront, List.reverse_append, dropWhile_append hback ends, List.reverse_reverse]

/-- Trimming finds what stands between the blanks at both ends, and nothing else does. -/
theorem trims_iff : Trims cs inside ↔ inside = trim cs := by
  constructor
  · exact Trims.eq_trim
  · rintro rfl
    exact trims_trim cs

/-- A text that begins with no blank begins like what stands between its blanks. -/
theorem Trims.head_eq {c d : Char} {text rest : List Char} (h : Trims text (d :: inside)) (blank : isBlank c = false)
    (begins : text = c :: rest) : c = d := by
  obtain ⟨before, after, hbetween, hbefore, -⟩ := h.between
  rw [begins] at hbetween
  cases before with
  | nil => exact (List.cons.inj hbetween).1
  | cons b bs =>
    obtain rfl := (List.cons.inj hbetween).1
    have hblank := hbefore c List.mem_cons_self
    rw [blank] at hblank
    cases hblank

/-- Characters none of which is blank are left as they are. -/
theorem trim_of_not_blank (h : ∀ c ∈ cs, isBlank c = false) : trim cs = cs := by
  refine Eq.symm (Trims.eq_trim ⟨⟨[], [], ?_, nofun, nofun⟩, ?_, ?_⟩)
  · rw [List.nil_append, List.append_nil]
  · exact fun c hc => h c (List.mem_of_mem_head? hc)
  · exact fun c hc => h c (List.mem_reverse.1 (List.mem_of_mem_head? hc))

end Workbook.Text

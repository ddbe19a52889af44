import Workbook.Proofs.CarryingOver
import Workbook.Proofs.Sessions

/-!
# Standard libraries fill true misses only

A standard library is asked for a name only where no level defines it, at the end of a chain of aliases.
So a name that has a value without the libraries has the same value with them, also when the memory of a
session holds what was taken from a library before, and a book that compiles without issues when no library
is there is compiled in the same way when there are some.
-/

namespace Workbook

/-- Neither standard library is switched on. -/
structure CompileOptions.Bare (options : CompileOptions) : Prop where
  palette : options.standardPalette = false
  formats : options.standardFormats = false

/-- Without the libraries a book knows no more than with them. -/
theorem Scope.CoveredBy.root {bare : CompileOptions} (h : bare.Bare) (options : CompileOptions)
    (definitions : Option Definitions) :
    (Scope.root definitions bare).CoveredBy (Scope.root definitions options) where
  layers k := by cases k <;> rfl
  standard k name value hvalue := by
    have hnone : (Scope.root definitions bare).standard k name = none := by
      rw [Scope.root, standard_overlay, h.palette, h.formats]
      cases k <;> rfl
    cases hnone.symm.trans hvalue

/-! ## Sessions side by side -/

/-- Members by their number, or else the first ones, are related in lists that are related one by one. -/
theorem getD_headD_forall₂ {β γ : Type} {r : β → γ → Prop} {as : List β} {bs : List γ} {a : β} {b : γ}
    (h : List.Forall₂ r as bs) (hnone : r a b) (n : Nat) :
    r (as.getD n (as.headD a)) (bs.getD n (bs.headD b)) := by
  have hgetD {as : List β} {bs : List γ} {a : β} {b : γ} (h : List.Forall₂ r as bs) (hab : r a b)
      (n : Nat) : r (as.getD n a) (bs.getD n b) := by
    induction h generalizing n with
    | nil => exact hab
    | cons hitem _ ih =>
      cases n with
      | zero => exact hitem
      | succ n => exact ih n
  cases h with
  | nil => exact hnone
  | cons hfirst hrest => exact hgetD (.cons hfirst hrest) hfirst n

namespace Session

/-- The scopes of another session know more, one by one. -/
def CoveredBy (s s' : Session) : Prop := List.Forall₂ Scope.CoveredBy s.scopes s'.scopes

namespace CoveredBy

variable {s s' : Session}

/-- A session without the libraries is covered by one with them. -/
theorem start {bare : CompileOptions} (h : bare.Bare) (options : CompileOptions)
    (definitions : Option Definitions) : (Session.start definitions bare).CoveredBy (.start definitions options) :=
  .cons (.root h options definitions) .nil

/-- The scopes of a session are covered by those of a session that covers it. -/
theorem scope (h : s.CoveredBy s') (n : Nat) : (s.scope n).CoveredBy (s'.scope n) :=
  getD_headD_forall₂ h (.refl _) n

/-- A request leaves a session covered. -/
theorem step (h : s.CoveredBy s') (request : Request) : (s.step request).CoveredBy (s'.step request) := by
  cases request with
  | use n k r => cases r <;> exact h
  | overlay parent definitions =>
    have hlength : s'.scopes.length = s.scopes.length := (List.Forall₂.length_eq h).symm
    unfold CoveredBy Session.step Session.overlay
    rw [hlength]
    exact List.rel_append h (.cons ((h.scope parent).overlay _ definitions) .nil)

/-- Requests in their order leave a session covered. -/
theorem perform (h : s.CoveredBy s') (requests : List Request) :
    (s.perform requests).CoveredBy (s'.perform requests) := by
  induction requests generalizing s s' with
  | nil => exact h
  | cons request rest ih => exact ih (h.step request)

end CoveredBy

/-- After the same requests, a name that has a value without the libraries has the same one with them. -/
theorem resolve_of_bare {bare : CompileOptions} (h : bare.Bare) (options : CompileOptions)
    (definitions : Option Definitions) (requests : List Request) {n : Nat} {k : Kind} {name : String}
    {found : Found k.Value}
    (hfound : (((start definitions bare).perform requests).resolve n k name).1 = .ok found) :
    (((start definitions options).perform requests).resolve n k name).1 = .ok found := by
  have hcovered := (CoveredBy.start h options definitions).perform requests
  rw [(Reachable.start.perform requests).resolve_eq] at hfound ⊢
  exact (hcovered.scope n).resolve hfound

end Session

/-- Switching standard libraries on changes nothing for a name that has a value without them, whatever
was asked before, and nothing for a book that compiles without issues when they are off. -/
theorem standard_libraries_fill_misses {bare : CompileOptions} (h : bare.Bare) (options : CompileOptions) :
    (∀ (definitions : Option Definitions) (requests : List Session.Request) (n : Nat) (k : Kind)
        (name : String) (found : Found k.Value),
        (((Session.start definitions bare).perform requests).resolve n k name).1 = .ok found →
        (((Session.start definitions options).perform requests).resolve n k name).1 = .ok found) ∧
      ∀ b : Book, (Compilation.compile bare b).issues = [] →
        (Compilation.compile options b).book = (Compilation.compile bare b).book ∧
          (Compilation.compile options b).issues = [] := by
  refine ⟨fun definitions requests n k name found => Session.resolve_of_bare h options definitions requests,
    fun b clean => ?_⟩
  obtain ⟨hissues, hvalue⟩ := Compile.book_carriesOver (.refl bare b) (.root h options b.definitions) clean
  exact ⟨hvalue.symm, hissues⟩

/-- Options without standard libraries. -/
def plainOptions : CompileOptions := { standardPalette := false, standardFormats := false }

/-- Definitions of a book under names that are also in the standard libraries. -/
def houseDefinitions : Definitions where
  colors := [("house", .inline ⟨1, 2, 3⟩), ("accent1", .named "house")]
  numerics := [("currency", .inline { commas := true })]

/-- Definitions of a page, on which one name has another meaning. -/
def pageDefinitions : Definitions := { colors := [("house", .inline ⟨4, 5, 6⟩)] }

/-- A book with these definitions. -/
def catalog : Book where
  name := "Catalog"
  definitions := some houseDefinitions
  theme := some (.inline { tab := some (.named "accent1") })
  pages := [{
    name := "Prices"
    rows := 3
    definitions := some pageDefinitions
    groups := [{ name := "Items", columns := [{
      name := "price"
      dataType := .inline (.numeric { format := some (.named "currency") })
      theme := some (.inline { data := some (.inline { fore := some (.named "accent1") }) }) }] }] }]

/-- The scope of the page is opened, and is asked for a name that only the standard palette has. -/
def pageRequests : List Session.Request := [.overlay 0 (some pageDefinitions), .use 1 .color (.named "accent2")]

/-- The catalog is the same with the libraries and without them. -/
theorem standard_libraries_fill_misses_catalog : plainOptions.Bare ∧
    (((Session.start (some houseDefinitions) plainOptions).perform pageRequests).resolve 1 .color
      "accent1").1 = .ok ⟨⟨4, 5, 6⟩, .definition [1] "house"⟩ ∧
    (((Session.start (some houseDefinitions) {}).perform pageRequests).resolve 1 .color "accent1").1 =
      .ok ⟨⟨4, 5, 6⟩, .definition [1] "house"⟩ ∧
    (Compilation.compile plainOptions catalog).issues = [] ∧
    (Compilation.compile {} catalog).book = (Compilation.compile plainOptions catalog).book ∧
    (Compilation.compile {} catalog).issues = [] := by
  have bare : plainOptions.Bare := ⟨rfl, rfl⟩
  have found : (((Session.start (some houseDefinitions) plainOptions).perform pageRequests).resolve 1 .color
      "accent1").1 = .ok ⟨⟨4, 5, 6⟩, .definition [1] "house"⟩ := by
    rw [(Session.Reachable.start.perform pageRequests).resolve_eq]
    exact Layers.resolve_of_value
      ((Layers.walk_named List.not_mem_nil rfl).trans (Layers.walk_inline (by decide) rfl))
  have clean : (Compilation.compile plainOptions catalog).issues = [] := by
    simp only [Compilation.compile, Compile.book, Compile.pages, Compile.page, Compile.groups, Compile.group,
      Compile.columns, Compile.column, Compile.levelTheme, Cascade.resolve, catalog, Cascade.expand,
      Cascade.inherited]
    decide +kernel
  obtain ⟨names, books⟩ := standard_libraries_fill_misses bare {}
  exact ⟨bare, found, names _ _ _ _ _ _ found, clean, books _ clean⟩

end Workbook

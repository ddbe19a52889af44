import Workbook.Proofs.CarryingOver

/-!
# References are transparent

A name means the value that it has where it is used. In a book that compiles without issues any names may
be replaced by copies of their values, and nothing is seen of it in the output. A value that a definition
shares with others carries its own names along; they are read where the copy stands, which is where the
name stood.
-/

namespace Workbook

/-- A book without issues makes the same output, again without issues, when names in it are replaced by
copies of their values. -/
theorem references_are_transparent {options : CompileOptions} {b b' : Book} (h : Book.Inlined options b b')
    (clean : (Compilation.compile options b).issues = []) :
    (Compilation.compile options b').book = (Compilation.compile options b).book ∧
      (Compilation.compile options b').issues = [] := by
  obtain ⟨hissues, hvalue⟩ := Compile.book_carriesOver h (.refl _) clean
  exact ⟨hvalue.symm, hissues⟩

/-- The format of an amount of money. -/
def euros : NumericFormat := { kind := .currency, symbol := some "€", position := .trailing }

/-- A style that names its color. -/
def strongStyle : Style := { fore := some (.named "ink"), bold := some true }

/-- A theme that names its color and a style. -/
def brandTheme : Theme := { tab := some (.named "ink"), header := some (.named "strong") }

/-- The definitions of the page of the ledger, on which ink has a color of its own. -/
def marchDefinitions : Definitions := { colors := [("ink", .inline ⟨0, 0, 255⟩)] }

/-- A book that names a theme, a style, a type and a format. -/
def ledger : Book where
  name := "Ledger"
  theme := some (.named "brand")
  definitions := some {
    colors := [("ink", .inline ⟨0, 0, 0⟩)]
    styles := [("strong", .inline strongStyle)]
    themes := [("brand", .inline brandTheme)]
    numerics := [("money", .named "euros"), ("euros", .inline euros)]
    types := [("amount", .inline (.numeric { format := some (.named "money") }))] }
  pages := [{
    name := "March"
    rows := 3
    theme := some (.inline { inherits := [.named "brand"] })
    definitions := some marchDefinitions
    groups := [{ name := "Entries", columns := [
      { name := "amount", dataType := .named "amount" },
      { name := "note", dataType := .inline (.text {
        styles := [⟨.custom (.boolean true), .named "strong"⟩] }) }] }] }]

/-- The strong style with a copy of the color of ink on the page. -/
def marchStyle : Style := { strongStyle with fore := some (.inline ⟨0, 0, 255⟩) }

/-- The theme with a copy of the color of ink in the book. -/
def inkTheme : Theme := { brandTheme with tab := some (.inline ⟨0, 0, 0⟩) }

/-- The theme with a copy of the style. -/
def marchTheme : Theme := { brandTheme with header := some (.inline strongStyle) }

/-- The ledger with copies in place of names. -/
def copiedLedger : Book where
  name := "Ledger"
  theme := some (.inline inkTheme)
  definitions := ledger.definitions
  pages := [{
    name := "March"
    rows := 3
    theme := some (.inline { inherits := [.inline marchTheme] })
    definitions := some marchDefinitions
    groups := [{ name := "Entries", columns := [
      { name := "amount", dataType := .inline (.numeric { format := some (.inline euros) }) },
      { name := "note", dataType := .inline (.text {
        styles := [⟨.custom (.boolean true), .inline marchStyle⟩] }) }] }] }]

/-- The ledger compiles without issues. -/
theorem ledger_clean : (Compilation.compile {} ledger).issues = [] := by
  have book : (Scope.root ledger.definitions {}).themes.walk [] "brand" = .value [] "brand" brandTheme :=
    Layers.walk_inline List.not_mem_nil rfl
  have page : ((Scope.root ledger.definitions {}).overlay [0] (some marchDefinitions)).themes.walk []
      "brand" = .value [] "brand" brandTheme := book
  simp only [ledger, brandTheme] at book page
  simp only [Compilation.compile, Compile.book, Compile.pages, Compile.page, Compile.levelTheme,
    Cascade.resolve, ledger, brandTheme, Cascade.expand_named, Cascade.expand, Cascade.inherited, book, page]
  decide +kernel

/-- The names of the ledger are replaced by copies, each of what the name means where it stands. -/
theorem ledger_inlined : Book.Inlined {} ledger copiedLedger := by
  let root := Scope.root ledger.definitions {}
  let march := root.overlay [0] (some marchDefinitions)
  have theme : Ref.Inlined (root.Means .theme) (Theme.Inlined root) (.named "brand") (.inline inkTheme) := by
    have brand : root.Means .theme "brand" brandTheme := .of_inline rfl
    have ink : root.Means .color "ink" ⟨0, 0, 0⟩ := .of_inline rfl
    exact .copied brand (.mk .nil (.some (Ref.Inlined.copied ink rfl)) .none (.some (Ref.Inlined.same _)) .none)
  have strong : march.Means .style "strong" strongStyle := .of_inline rfl
  have inherits : Ref.Inlined (march.Means .theme) (Theme.Inlined march) (.named "brand")
      (.inline marchTheme) := by
    have brand : march.Means .theme "brand" brandTheme := .of_inline rfl
    exact .copied brand
      (.mk .nil (.some (Ref.Inlined.same _)) .none (.some (Ref.Inlined.copied strong (.refl _))) .none)
  have amount : Ref.Inlined (march.Means .dataType) (DataType.Inlined march) (.named "amount")
      (.inline (.numeric { format := some (.inline euros) })) := by
    have amount : march.Means .dataType "amount" (.numeric { format := some (.named "money") }) :=
      .of_inline rfl
    have money : march.Means .numeric "money" euros := .of_named rfl (by decide) rfl
    exact .copied amount (.numeric rfl .nil (.some (Ref.Inlined.copied money rfl)))
  have note : ConditionalStyle.Inlined march ⟨TextRule.custom (.boolean true), .named "strong"⟩
      ⟨TextRule.custom (.boolean true), .inline marchStyle⟩ := by
    have ink : march.Means .color "ink" ⟨0, 0, 255⟩ := .of_inline rfl
    have style : Style.Inlined march strongStyle marchStyle :=
      ⟨.some (Ref.Inlined.copied ink rfl), .none, rfl, rfl, .none, .none⟩
    exact ⟨rfl, .copied strong style⟩
  exact {
    name := rfl
    definitions := rfl
    theme := .some theme
    pages := .cons {
      name := rfl
      rows := rfl
      definitions := rfl
      theme := .some (Ref.Inlined.within (.mk (.cons inherits .nil) .none .none .none .none))
      groups := .cons {
        name := rfl
        definitions := rfl
        theme := .none
        columns := .cons ⟨rfl, rfl, .none, amount, rfl⟩
          (.cons ⟨rfl, rfl, .none, Ref.Inlined.within (.text rfl (.cons note .nil)), rfl⟩ .nil) } .nil } .nil }

/-- The ledger and its copy make the same output. -/
theorem references_are_transparent_ledger : Book.Inlined {} ledger copiedLedger ∧
    (Compilation.compile {} ledger).issues = [] ∧
    (Compilation.compile {} copiedLedger).book = (Compilation.compile {} ledger).book ∧
      (Compilation.compile {} copiedLedger).issues = [] :=
  ⟨ledger_inlined, ledger_clean, references_are_transparent ledger_inlined ledger_clean⟩

end Workbook

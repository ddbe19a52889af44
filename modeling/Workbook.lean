import Workbook.Main
import Workbook.Session
import Workbook.Schema.Issues
import Workbook.Proofs.Outcomes
import Workbook.Proofs.Reports
import Workbook.Proofs.Kept
import Workbook.Proofs.Index
import Workbook.Proofs.Placement
import Workbook.Proofs.FlatWalk
import Workbook.Proofs.Registries
import Workbook.Proofs.Sessions
import Workbook.Proofs.Inheritance
import Workbook.Proofs.Grammar.Scanning
import Workbook.Proofs.Grammar.References
import Workbook.Proofs.PlainDecimals
import Workbook.Proofs.Grammar.Tokens
import Workbook.Proofs.Grammar.Trees
import Workbook.Proofs.Grammar.Lexing
import Workbook.Proofs.FormulaTrees
import Workbook.Proofs.IssuePlaces
import Workbook.Proofs.Loops
import Workbook.Proofs.Levels
import Workbook.Proofs.Repeats
import Workbook.Proofs.Declarations
import Workbook.Proofs.ThemeLevels
import Workbook.Proofs.Standing
import Workbook.Proofs.Selections
import Workbook.Proofs.HeldSelectors
import Workbook.Proofs.RenderedSelectors
import Workbook.Proofs.RowAlignment
import Workbook.Proofs.SharedMemory
import Workbook.Proofs.PageIndependence
import Workbook.Proofs.Emission
import Workbook.Proofs.SchemaFaults
import Workbook.Proofs.Codecs.Laws
import Workbook.Proofs.CarryingOver
import Workbook.Proofs.Transparency
import Workbook.Proofs.StandardLibraries
import Workbook.Proofs.Naturality
import Workbook.Proofs.Objects
import Workbook.Proofs.Codecs.Styles
import Workbook.Proofs.Codecs.Formats
import Workbook.Library
import Workbook.Proofs.Codecs.Arranged
import Workbook.Proofs.Codecs.Books
import Workbook.Proofs.Codecs.SheetBooks
import Workbook.Proofs.FaultPlaces
import Workbook.Proofs.OutputRules
import Workbook.Proofs.AliasWalks
import Workbook.Proofs.MemoryHistory
import Workbook.Proofs.Relocation
import Workbook.Proofs.AncestorFolds
import Workbook.Proofs.LostReferences
import Workbook.Proofs.BehaviorParts
import Workbook.Proofs.NumberOrder
import Workbook.Proofs.RangeBounds
import Workbook.Proofs.AddressTexts
import Workbook.Proofs.RowRanges
import Workbook.Proofs.TextLiterals
import Workbook.Proofs.Templates
import Workbook.Proofs.NumericCodes
import Workbook.Proofs.TemporalCodes
import Workbook.Proofs.IndexedColumns
import Workbook.Proofs.FormulaFailures
import Workbook.Proofs.EarlyEnds
import Workbook.Proofs.MomentFormulas
import Workbook.Proofs.WholeMessages
import Workbook.Proofs.WholeOutput
import Workbook.Proofs.ColumnLetters
import Workbook.Proofs.GridEdges
import Workbook.Proofs.Metrics
import Workbook.Proofs.CountedPlaces
import Workbook.Proofs.RowUnits
import Workbook.Proofs.ColorTexts

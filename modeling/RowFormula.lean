import RowFormula.Kind.Set
import RowFormula.Calendar.DateText
import RowFormula.Calendar.DatePattern.Writer
import RowFormula.Number.Read
import RowFormula.Text.Case
import RowFormula.Text.Units
import RowFormula.Text.Search
import RowFormula.Text.Entity
import RowFormula.Text.Width
import RowFormula.Text.Escaped
import RowFormula.Calendar.Unit
import RowFormula.Calendar.Style
import RowFormula.Number.Remainder
import RowFormula.Number.Elementary
import RowFormula.Number.Places
import RowFormula.Number.Binomial
import RowFormula.Number.Bitwise
import RowFormula.Random.Draws
import RowFormula.Value
import RowFormula.Value.Compare
import RowFormula.Value.Operation
import RowFormula.Span
import RowFormula.Table
import RowFormula.Tree
import RowFormula.Grammar.Recognizer
import RowFormula.Grammar.Formula
import RowFormula.Tree.Parse
import RowFormula.Error
import RowFormula.Text.Script
import RowFormula.Text.Case.Fold
import RowFormula.Text.Width
import RowFormula.Pattern.Basic
import RowFormula.Pattern.Replacement
import RowFormula.Formula
import RowFormula.Engine
import RowFormula.Report
import RowFormula.CommandLine
import RowFormula.Main
import RowFormula.Proofs.KindSoundness
import RowFormula.Proofs.Folding
import RowFormula.Proofs.Nesting
import RowFormula.Proofs.Reading
import RowFormula.Proofs.Declarations
import RowFormula.Proofs.Catalog
import RowFormula.Proofs.Nodes
import RowFormula.Proofs.Calling
import RowFormula.Proofs.Levels
import RowFormula.Proofs.Reentry
import RowFormula.Proofs.Progress
import RowFormula.Proofs.Transparency
import RowFormula.Proofs.Depth
import RowFormula.Proofs.Limits
import RowFormula.Proofs.Locations
import RowFormula.Proofs.Draws
import RowFormula.Proofs.Locality
import RowFormula.Proofs.RowHistory
import RowFormula.Proofs.Meaning
import RowFormula.Proofs.Missing
import RowFormula.Proofs.Tolerance
import RowFormula.Proofs.Conditionals
import RowFormula.Proofs.Fragments
import RowFormula.Proofs.Pieces
import RowFormula.Proofs.Equality
import RowFormula.Proofs.NormalForm
import RowFormula.Proofs.Rounding
import RowFormula.Proofs.Storage
import RowFormula.Proofs.Scientific
import RowFormula.Proofs.Shortest
import RowFormula.Proofs.Rendering
import RowFormula.Proofs.WholeNumbers
import RowFormula.Proofs.Collation
import RowFormula.Proofs.Counter
import RowFormula.Proofs.Interchange
import RowFormula.Proofs.NamedOperators
import RowFormula.Proofs.References
import RowFormula.Proofs.ExactValues
import RowFormula.Proofs.BinomialLoop
import RowFormula.Proofs.ExactArithmetic
import RowFormula.Proofs.BinomialValues
import RowFormula.Proofs.Substrings
import RowFormula.Proofs.Searching
import RowFormula.Proofs.PatternReading
import RowFormula.Proofs.PatternParts
import RowFormula.Proofs.PatternClasses
import RowFormula.Proofs.PatternGroups
import RowFormula.Proofs.PatternMatching
import RowFormula.Proofs.WholePatterns
import RowFormula.Proofs.WholeMatches
import RowFormula.Proofs.Markup
import RowFormula.Proofs.Aggregates
import RowFormula.Proofs.DecimalPlaces
import RowFormula.Proofs.Instants
import RowFormula.Proofs.DateShifts
import RowFormula.Proofs.DateUnits
import RowFormula.Proofs.ClockRange
import RowFormula.Proofs.ElapsedTime
import RowFormula.Proofs.DateTexts
import RowFormula.Proofs.Labels
import RowFormula.Proofs.Arguments
import RowFormula.Proofs.DateReaders

import ColumnStore.Pool.Traffic
import ColumnStore.Session.Definition
import ColumnStore.Session.Insert
import ColumnStore.Session.Query
import ColumnStore.Settings.Configuration
import ColumnStore.Settings.Sample
import ColumnStore.Proofs.Lexical.Pieces
import ColumnStore.Proofs.Lexical.Expression
import ColumnStore.Proofs.Grammar.Token
import ColumnStore.Proofs.Grammar.Formula
import ColumnStore.Proofs.Grammar.Reader
import ColumnStore.Proofs.Grammar.Reading
import ColumnStore.Proofs.Grammar.Meaning
import ColumnStore.Proofs.Grammar.Regrouping
import ColumnStore.Proofs.Grammar.Rendering
import ColumnStore.Proofs.Lexical.Layout
import ColumnStore.Proofs.Lexical.Alike
import ColumnStore.Proofs.Query.Layout
import ColumnStore.Proofs.Pool.Conservation
import ColumnStore.Proofs.Wire.Table
import ColumnStore.Proofs.Wire.Exception
import ColumnStore.Proofs.Wire.Interruption
import ColumnStore.Proofs.Wire.Lockstep
import ColumnStore.Proofs.Wire.Lines
import ColumnStore.Proofs.Wire.Answer
import ColumnStore.Proofs.Result.Chunks
import ColumnStore.Proofs.Decimal.Reading
import ColumnStore.Proofs.Time.Reading
import ColumnStore.Proofs.Literal.Notation
import ColumnStore.Proofs.Literal.Values
import ColumnStore.Proofs.ColumnType.Shape
import ColumnStore.Proofs.ColumnType.Kept
import ColumnStore.Proofs.Decimal.Rounding
import ColumnStore.Proofs.ColumnType.RoundTrip
import ColumnStore.Proofs.Session.Course
import ColumnStore.Proofs.Session.Refusal
import ColumnStore.Proofs.ColumnType.Names
import ColumnStore.Proofs.Number.Nearest
import ColumnStore.Proofs.Number.Shortest
import ColumnStore.Proofs.Number.Real
import ColumnStore.Proofs.Address.Reading
import ColumnStore.Proofs.ColumnType.Lasting
import ColumnStore.Proofs.Statement.Insertion
import ColumnStore.Proofs.Session.Insertion
import ColumnStore.Proofs.Query.Slicing
import ColumnStore.Proofs.Query.Pages
import ColumnStore.Proofs.ColumnType.Again
import ColumnStore.Proofs.Model.Setting
import ColumnStore.Proofs.Query.Names
import ColumnStore.Proofs.Query.References
import ColumnStore.Proofs.Except.Basic
import ColumnStore.Proofs.Wire.Joined
import ColumnStore.Proofs.Result.Selection
import ColumnStore.Proofs.Session.Interchange
import ColumnStore.Proofs.Query.Counting
import ColumnStore.Proofs.Expr.Conjunction
import ColumnStore.Proofs.Query.Filtering
import ColumnStore.Proofs.Query.Deletion
import ColumnStore.Proofs.Session.ReadOnly
import ColumnStore.Proofs.Wire.Trace
import ColumnStore.Proofs.Result.Trace
import ColumnStore.Proofs.Query.Reordering
import ColumnStore.Proofs.Query.Aliases
import ColumnStore.Proofs.ColumnType.Inside
import ColumnStore.Proofs.ColumnType.Integers
import ColumnStore.Proofs.Time.Denoted
import ColumnStore.Proofs.Decimal.Nearest
import ColumnStore.Proofs.ColumnType.Absence
import ColumnStore.Proofs.Literal.Spelling
import ColumnStore.Proofs.ColumnType.Native
import ColumnStore.Proofs.Model.Defaults
import ColumnStore.Proofs.ColumnType.Nesting
import ColumnStore.Proofs.Literal.Extent
import ColumnStore.Proofs.ColumnType.Tasks
import ColumnStore.Proofs.ColumnType.Termination
import ColumnStore.Proofs.Text.Ending
import ColumnStore.Proofs.ColumnType.Argument
import ColumnStore.Proofs.Result.Nullability

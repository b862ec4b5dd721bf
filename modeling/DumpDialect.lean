import DumpDialect.Command.FileTree
import DumpDialect.Main
import DumpDialect.Proofs.Conversion.History
import DumpDialect.Proofs.Conversion.Databases
import DumpDialect.Proofs.Conversion.Exclusion
import DumpDialect.Proofs.Conversion.Deletion
import DumpDialect.Proofs.Conversion.Deferral
import DumpDialect.Proofs.Pattern.Derived
import DumpDialect.Proofs.Pattern.Rewriting
import DumpDialect.Proofs.Identifier
import DumpDialect.Proofs.Conversion.Openings
import DumpDialect.Proofs.Insert.Line
import DumpDialect.Proofs.Insert.Boundaries
import DumpDialect.Proofs.Conversion.Independence
import DumpDialect.Proofs.Conversion.SequenceValues
import DumpDialect.Proofs.Insert.Continuation
import DumpDialect.Proofs.Conversion.Failures
import DumpDialect.Proofs.Conversion.Reports
import DumpDialect.Proofs.Conversion.ForeignKeys
import DumpDialect.Proofs.Pattern.Preferred
import DumpDialect.Proofs.Insert.Literal
import DumpDialect.Proofs.Insert.ValueRules
import DumpDialect.Proofs.Insert.Values
import DumpDialect.Proofs.Conversion.Lookahead
import DumpDialect.Proofs.Conversion.Accounting
import DumpDialect.Proofs.Pattern.Leading
import DumpDialect.Proofs.Insert.Keyword
import DumpDialect.Proofs.Text.Utf8
import DumpDialect.Proofs.Text.Line
import DumpDialect.Proofs.Text.Pieces
import DumpDialect.Proofs.Insert.Columns
import DumpDialect.Proofs.Insert.Bytes
import DumpDialect.Proofs.Command.FileTree
import DumpDialect.Proofs.Command.Files
import DumpDialect.Proofs.Conversion.OneLine
import DumpDialect.Proofs.Conversion.Framing
import DumpDialect.Proofs.Insert.Ending
import DumpDialect.Proofs.CreateTable.Parentheses
import DumpDialect.Proofs.CreateTable.AnyOfArray
import DumpDialect.Proofs.TypeName
import DumpDialect.Proofs.CreateTable.Expression
import DumpDialect.Proofs.CreateTable.Reading
import DumpDialect.Proofs.CreateTable.Casts
import DumpDialect.Proofs.CreateTable.CastRemoval
import DumpDialect.Proofs.Text.Classes
import DumpDialect.Proofs.SequenceValue
import DumpDialect.Proofs.Pattern.Counting
import DumpDialect.Proofs.Pattern.Anchored
import DumpDialect.Proofs.Text.Nesting
import DumpDialect.Proofs.Pattern.Taken
import DumpDialect.Proofs.Pattern.Brackets
import DumpDialect.Proofs.CreateTable.Definition
import DumpDialect.Proofs.CreateTable.LiteralDefault
import DumpDialect.Proofs.CreateTable.TextDefault
import DumpDialect.Proofs.CreateTable.TypeMapping
import DumpDialect.Proofs.CreateTable.CastDefault
import DumpDialect.Proofs.CreateTable.Bracketing
import DumpDialect.Proofs.AlterTable.QuoteKey
import DumpDialect.Proofs.AlterTable.Keys
import DumpDialect.Proofs.ColumnNames
import DumpDialect.Proofs.CreateIndex.Rules
import DumpDialect.Proofs.CreateIndex.Statement
import DumpDialect.Proofs.Pattern.Ends
import DumpDialect.Proofs.Conversion.Blocks
import DumpDialect.Proofs.CreateTable.Symbols
import DumpDialect.Proofs.CreateTable.Boundaries
import DumpDialect.Proofs.ColumnList.Entries
import DumpDialect.Proofs.ColumnList.RoundTrip
import DumpDialect.Proofs.CreateTable.Excess

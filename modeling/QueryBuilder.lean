import QueryBuilder.Error
import QueryBuilder.Alias
import QueryBuilder.Expr
import QueryBuilder.Scope
import QueryBuilder.Schema.Basic
import QueryBuilder.Schema.Reference
import QueryBuilder.Schema.File
import QueryBuilder.Schema.Registry
import QueryBuilder.Query.Basic
import QueryBuilder.Query.Builder
import QueryBuilder.Query.Row
import QueryBuilder.Query.Join
import QueryBuilder.Query.Evaluation
import QueryBuilder.Sql.Tree
import QueryBuilder.Sql.Printer
import QueryBuilder.Sql.Names
import QueryBuilder.Sql.Compilation
import QueryBuilder.Decimal.Binary
import QueryBuilder.Decimal.Reading
import QueryBuilder.Decimal.Shortest
import QueryBuilder.Decimal.Notation
import QueryBuilder.Calendar
import QueryBuilder.Json.Number
import QueryBuilder.Json.Scalar
import QueryBuilder.Literal
import QueryBuilder.Text.Quoted
import QueryBuilder.Text.Hexadecimal
import QueryBuilder.Text.Printable
import QueryBuilder.Text.Escaped
import QueryBuilder.Toml.Value
import QueryBuilder.Toml.Scalar
import QueryBuilder.Toml.Text
import QueryBuilder.Toml.Statement
import QueryBuilder.Toml.Document
import QueryBuilder.Settings
import QueryBuilder.Execution
import QueryBuilder.Diagnostic
import QueryBuilder.Proofs.Quoted
import QueryBuilder.Proofs.Layout
import QueryBuilder.Proofs.Results
import QueryBuilder.Proofs.Naming
import QueryBuilder.Proofs.PendingEntries
import QueryBuilder.Proofs.Regular
import QueryBuilder.Proofs.WellFormed
import QueryBuilder.Proofs.Building
import QueryBuilder.Proofs.QuotedText
import QueryBuilder.Proofs.Occurrences
import QueryBuilder.Proofs.Aliases
import QueryBuilder.Proofs.Scoping
import QueryBuilder.Proofs.Rows
import QueryBuilder.Proofs.Conditions
import QueryBuilder.Proofs.Callbacks
import QueryBuilder.Proofs.Flattening
import QueryBuilder.Proofs.Twins
import QueryBuilder.Proofs.TwinEvaluation
import QueryBuilder.Proofs.TwinCompilation
import QueryBuilder.Proofs.MergedJoin
import QueryBuilder.Proofs.Levels
import QueryBuilder.Proofs.WithClauses
import QueryBuilder.Proofs.MergedReferences
import QueryBuilder.Proofs.OuterReferences
import QueryBuilder.Proofs.HoistedEntries
import QueryBuilder.Proofs.RowHandles
import QueryBuilder.Proofs.Formulas
import QueryBuilder.Proofs.FormulaText
import QueryBuilder.Proofs.Ending
import QueryBuilder.Proofs.Tame
import QueryBuilder.Proofs.Termination
import QueryBuilder.Proofs.FetchChains
import QueryBuilder.Proofs.SameScopes
import QueryBuilder.Proofs.InlineStatements
import QueryBuilder.Proofs.SchemaHistories
import QueryBuilder.Proofs.NarrowedRows
import QueryBuilder.Proofs.MergedSelections
import QueryBuilder.Proofs.ConditionText
import QueryBuilder.Proofs.ClosedText
import QueryBuilder.Proofs.WhereClauses
import QueryBuilder.Proofs.ReachableTables
import QueryBuilder.Proofs.ReservedTables
import QueryBuilder.Proofs.AggregateArguments
import QueryBuilder.Proofs.MergedAggregates
import QueryBuilder.Proofs.AppendedSelections
import QueryBuilder.Proofs.SchemaFiles
import QueryBuilder.Proofs.AssociationJoins
import QueryBuilder.Proofs.MirroredAssociations
import QueryBuilder.Proofs.FetchOutcomes
import QueryBuilder.Proofs.Instants
import QueryBuilder.Proofs.FreshAliases
import QueryBuilder.Proofs.Trails
import QueryBuilder.Proofs.TracedCompilation
import QueryBuilder.Proofs.AliasSpace

import PipelineSql.Compile
import PipelineSql.Dialect
import PipelineSql.Draft
import PipelineSql.Draft.Basic
import PipelineSql.Draft.Graph
import PipelineSql.Draft.Grouping
import PipelineSql.Draft.Reshape
import PipelineSql.Draft.Rows
import PipelineSql.Draft.Write
import PipelineSql.Error
import PipelineSql.Expr.Basic
import PipelineSql.Expr.Build
import PipelineSql.Expr.Equality
import PipelineSql.Expr.Fields
import PipelineSql.Expr.Shape
import PipelineSql.Grammar
import PipelineSql.Grammar.Expression
import PipelineSql.Grammar.Filter
import PipelineSql.Grammar.Phrase
import PipelineSql.Grammar.Stage
import PipelineSql.Json.Basic
import PipelineSql.Json.Printer
import PipelineSql.Json.Reader
import PipelineSql.Literal
import PipelineSql.Operator
import PipelineSql.Path
import PipelineSql.Pipeline.Fusion
import PipelineSql.Pipeline.Pass
import PipelineSql.Pipeline.Pushdown
import PipelineSql.Pipeline.Validity
import PipelineSql.Proofs.ArrayPositions
import PipelineSql.Proofs.Binding
import PipelineSql.Proofs.BucketPartitions
import PipelineSql.Proofs.ClauseOrder
import PipelineSql.Proofs.Coherence
import PipelineSql.Proofs.Compact
import PipelineSql.Proofs.ConditionTrees
import PipelineSql.Proofs.Confinement
import PipelineSql.Proofs.Conjuncts
import PipelineSql.Proofs.Delimited
import PipelineSql.Proofs.Document
import PipelineSql.Proofs.Exports
import PipelineSql.Proofs.FieldAtoms
import PipelineSql.Proofs.FilterLanguage
import PipelineSql.Proofs.FilterMeaning
import PipelineSql.Proofs.FilterMoves
import PipelineSql.Proofs.Fixpoint
import PipelineSql.Proofs.FreshNames
import PipelineSql.Proofs.GroupKeys
import PipelineSql.Proofs.Grouping
import PipelineSql.Proofs.Injection
import PipelineSql.Proofs.InlineLiterals
import PipelineSql.Proofs.JoinedClauses
import PipelineSql.Proofs.Lexing
import PipelineSql.Proofs.LookupCounts
import PipelineSql.Proofs.RowTexts
import PipelineSql.Proofs.Dependence
import PipelineSql.Proofs.Missteps
import PipelineSql.Proofs.NamedSubqueries
import PipelineSql.Proofs.NestedObjects
import PipelineSql.Proofs.Nesting
import PipelineSql.Proofs.NullTests
import PipelineSql.Proofs.Numeral
import PipelineSql.Proofs.Occurrences
import PipelineSql.Proofs.OwnSource
import PipelineSql.Proofs.PathSteps
import PipelineSql.Proofs.Positions
import PipelineSql.Proofs.Precedence
import PipelineSql.Proofs.PrintedTokens
import PipelineSql.Proofs.Projections
import PipelineSql.Proofs.Reading
import PipelineSql.Proofs.Relation.Alike
import PipelineSql.Proofs.Relation.Array
import PipelineSql.Proofs.Relation.ColumnUse
import PipelineSql.Proofs.Relation.Coupling
import PipelineSql.Proofs.Relation.Draft
import PipelineSql.Proofs.Relation.Expr
import PipelineSql.Proofs.Relation.Faithful
import PipelineSql.Proofs.Relation.Fragment
import PipelineSql.Proofs.Relation.Pipeline
import PipelineSql.Proofs.Relation.Place
import PipelineSql.Proofs.Relation.Query
import PipelineSql.Proofs.Relation.Reading
import PipelineSql.Proofs.Relation.Render
import PipelineSql.Proofs.Relation.Scalar
import PipelineSql.Proofs.Relation.Scope
import PipelineSql.Proofs.Relation.Stage
import PipelineSql.Proofs.ReleaseFeatures
import PipelineSql.Proofs.RemovedFields
import PipelineSql.Proofs.RenderingEffects
import PipelineSql.Proofs.Results
import PipelineSql.Proofs.RowCounts
import PipelineSql.Proofs.RowShapes
import PipelineSql.Proofs.RowSteps
import PipelineSql.Proofs.RowWindows
import PipelineSql.Proofs.Scoping
import PipelineSql.Proofs.SelectLists
import PipelineSql.Proofs.SortOrder
import PipelineSql.Proofs.SourceNames
import PipelineSql.Proofs.Strictness
import PipelineSql.Proofs.TextMeanings
import PipelineSql.Proofs.Truth
import PipelineSql.Proofs.UnjoinedTexts
import PipelineSql.Proofs.VariableSegments
import PipelineSql.Proofs.WellFormed.Expr
import PipelineSql.Proofs.WellFormed.Grammar
import PipelineSql.Proofs.WellFormed.Pipeline
import PipelineSql.Proofs.WellFormed.Stage
import PipelineSql.Proofs.WindowNesting
import PipelineSql.Proofs.Windowless
import PipelineSql.Proofs.Wording
import PipelineSql.Proofs.WrappedRows
import PipelineSql.Proofs.WritePlacement
import PipelineSql.Proofs.Yields
import PipelineSql.Render
import PipelineSql.Render.Accumulate
import PipelineSql.Render.Arithmetic
import PipelineSql.Render.Array
import PipelineSql.Render.Basic
import PipelineSql.Render.Comparison
import PipelineSql.Render.Context
import PipelineSql.Render.Convert
import PipelineSql.Render.Document
import PipelineSql.Render.Elements
import PipelineSql.Render.Place
import PipelineSql.Render.Reading
import PipelineSql.Render.Subscript
import PipelineSql.Render.Text
import PipelineSql.Render.Window
import PipelineSql.Scope.Basic
import PipelineSql.Scope.Object
import PipelineSql.Scope.Row
import PipelineSql.Settings
import PipelineSql.Settings.Expand
import PipelineSql.Sql.Clause
import PipelineSql.Sql.Condition
import PipelineSql.Sql.Fragment
import PipelineSql.Sql.Query
import PipelineSql.Sql.Statement
import PipelineSql.Sql.Token
import PipelineSql.Stage.Basic
import PipelineSql.Stage.Build
import PipelineSql.Stage.Projection
import PipelineSql.Target
import PipelineSql.Text.Alphanumeric
import PipelineSql.Text.Decimal
import PipelineSql.Text.Quoted
import PipelineSql.Toml.Basic
import PipelineSql.Toml.Reader
import PipelineSql.Window

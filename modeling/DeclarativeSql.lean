import DeclarativeSql.Code.Buffer
import DeclarativeSql.Code.Command
import DeclarativeSql.Code.Execution
import DeclarativeSql.Code.Parameter
import DeclarativeSql.Code.Piece
import DeclarativeSql.Code.Script
import DeclarativeSql.Code.Spacing
import DeclarativeSql.CommandLine.Options
import DeclarativeSql.CommandLine.Request
import DeclarativeSql.CommandLine.Run
import DeclarativeSql.Connection
import DeclarativeSql.Error
import DeclarativeSql.Expr.Basic
import DeclarativeSql.Expr.Grouping
import DeclarativeSql.Expr.Operator
import DeclarativeSql.Expr.Pieces
import DeclarativeSql.Json.Basic
import DeclarativeSql.Json.Lexer
import DeclarativeSql.Json.Reader
import DeclarativeSql.Json.Writer
import DeclarativeSql.Main
import DeclarativeSql.Migration.Delta
import DeclarativeSql.Migration.Dialect
import DeclarativeSql.Migration.Error
import DeclarativeSql.Migration.Executor
import DeclarativeSql.Migration.Report
import DeclarativeSql.Migration.SchemaFile
import DeclarativeSql.Migration.Statement
import DeclarativeSql.Postgres.Catalog
import DeclarativeSql.Postgres.ColumnFlags
import DeclarativeSql.Postgres.Dialect
import DeclarativeSql.Postgres.Introspection
import DeclarativeSql.Postgres.Positional
import DeclarativeSql.Postgres.SqlState
import DeclarativeSql.Postgres.TypeName
import DeclarativeSql.Proofs.Binding.Bindings
import DeclarativeSql.Proofs.Binding.Commands
import DeclarativeSql.Proofs.Binding.OpenParts
import DeclarativeSql.Proofs.Binding.References
import DeclarativeSql.Proofs.Binding.Sources
import DeclarativeSql.Proofs.Catalog.Assembly
import DeclarativeSql.Proofs.Catalog.RoundTrip
import DeclarativeSql.Proofs.Catalog.Rows
import DeclarativeSql.Proofs.Catalog.TextDefaults
import DeclarativeSql.Proofs.Embedding.Buffer
import DeclarativeSql.Proofs.Embedding.Filling
import DeclarativeSql.Proofs.Embedding.Pieces
import DeclarativeSql.Proofs.Embedding.Statements
import DeclarativeSql.Proofs.Embedding.Steadiness
import DeclarativeSql.Proofs.Grammar.Chain
import DeclarativeSql.Proofs.Grammar.Derivation
import DeclarativeSql.Proofs.Grammar.Inverse
import DeclarativeSql.Proofs.Grammar.Levels
import DeclarativeSql.Proofs.Grammar.Meaning
import DeclarativeSql.Proofs.Grammar.Symbol
import DeclarativeSql.Proofs.Grammar.Token
import DeclarativeSql.Proofs.Json.Indented
import DeclarativeSql.Proofs.Migration.Application
import DeclarativeSql.Proofs.Migration.Conflicts
import DeclarativeSql.Proofs.Migration.IndexNames
import DeclarativeSql.Proofs.Migration.IndexOrder
import DeclarativeSql.Proofs.Migration.Matching
import DeclarativeSql.Proofs.Migration.Necessity
import DeclarativeSql.Proofs.Migration.Outline
import DeclarativeSql.Proofs.Migration.Persistence
import DeclarativeSql.Proofs.Migration.Replacement
import DeclarativeSql.Proofs.Migration.Reversal
import DeclarativeSql.Proofs.Migration.RoundTrip
import DeclarativeSql.Proofs.Migration.Sameness
import DeclarativeSql.Proofs.Migration.SharedNames
import DeclarativeSql.Proofs.Migration.Structure
import DeclarativeSql.Proofs.Migration.TableChange
import DeclarativeSql.Proofs.Parameters.Glyph
import DeclarativeSql.Proofs.Parameters.History
import DeclarativeSql.Proofs.Parameters.Numbering
import DeclarativeSql.Proofs.Parameters.Replay
import DeclarativeSql.Proofs.Parameters.Rewriting
import DeclarativeSql.Proofs.Parameters.Splitting
import DeclarativeSql.Proofs.Parameters.Writing
import DeclarativeSql.Proofs.Query.Attachments
import DeclarativeSql.Proofs.Query.Creation
import DeclarativeSql.Proofs.Query.Forest
import DeclarativeSql.Proofs.Query.Lineage
import DeclarativeSql.Proofs.Query.Mentions
import DeclarativeSql.Proofs.Query.Refusals
import DeclarativeSql.Proofs.Query.Registration
import DeclarativeSql.Proofs.Query.Runs
import DeclarativeSql.Proofs.Quoting.Scanner
import DeclarativeSql.Proofs.Quoting.Statements
import DeclarativeSql.Proofs.Record.Annotations
import DeclarativeSql.Proofs.Record.Declared
import DeclarativeSql.Proofs.Record.Mapping
import DeclarativeSql.Proofs.Record.Naming
import DeclarativeSql.Proofs.Record.Positions
import DeclarativeSql.Proofs.Record.Reading
import DeclarativeSql.Proofs.Rendering.Acceptance
import DeclarativeSql.Proofs.Rendering.ChildOrder
import DeclarativeSql.Proofs.Rendering.Clauses
import DeclarativeSql.Proofs.Rendering.Depth
import DeclarativeSql.Proofs.Rendering.Failures
import DeclarativeSql.Proofs.Rendering.Leaves
import DeclarativeSql.Proofs.Rendering.Part
import DeclarativeSql.Proofs.Rendering.Relabelling
import DeclarativeSql.Proofs.Rendering.SelectList
import DeclarativeSql.Proofs.Rendering.Statement
import DeclarativeSql.Proofs.Rendering.ValueCounts
import DeclarativeSql.Proofs.Results
import DeclarativeSql.Proofs.Scanning.Content
import DeclarativeSql.Proofs.Scanning.Expressions
import DeclarativeSql.Proofs.Scanning.Flow
import DeclarativeSql.Proofs.Scanning.Renaming
import DeclarativeSql.Proofs.Scanning.Scanner
import DeclarativeSql.Proofs.Scanning.Statements
import DeclarativeSql.Proofs.Scanning.Texts
import DeclarativeSql.Proofs.Scanning.Writing
import DeclarativeSql.Proofs.Schema.Builder
import DeclarativeSql.Proofs.Schema.ConstraintNames
import DeclarativeSql.Proofs.Schema.Contents
import DeclarativeSql.Proofs.Schema.DeclarationOrder
import DeclarativeSql.Proofs.Schema.Document
import DeclarativeSql.Proofs.Schema.Draft
import DeclarativeSql.Proofs.Schema.FlagConstraints
import DeclarativeSql.Proofs.Schema.Listing
import DeclarativeSql.Proofs.Schema.LocalConstraints
import DeclarativeSql.Proofs.Schema.Ownership
import DeclarativeSql.Proofs.Schema.Refusal
import DeclarativeSql.Proofs.Schema.Registry
import DeclarativeSql.Proofs.Schema.Sharing
import DeclarativeSql.Proofs.Scoping.Fragment
import DeclarativeSql.Proofs.Scoping.Scope
import DeclarativeSql.Proofs.Scoping.Statement
import DeclarativeSql.Proofs.Scoping.Tables
import DeclarativeSql.Proofs.Values.Commands
import DeclarativeSql.Proofs.Values.Statements
import DeclarativeSql.Query.Arena
import DeclarativeSql.Query.Node
import DeclarativeSql.Query.NodeSort
import DeclarativeSql.Query.Pieces
import DeclarativeSql.Record.Annotation
import DeclarativeSql.Record.Document
import DeclarativeSql.Record.FieldType
import DeclarativeSql.Record.Mapping
import DeclarativeSql.Record.Row
import DeclarativeSql.Record.TypeText
import DeclarativeSql.Schema.Column
import DeclarativeSql.Schema.Constraint
import DeclarativeSql.Schema.Database
import DeclarativeSql.Schema.Declaration
import DeclarativeSql.Schema.Document
import DeclarativeSql.Schema.Flags
import DeclarativeSql.Schema.Registry
import DeclarativeSql.Schema.SqlType
import DeclarativeSql.Schema.Table
import DeclarativeSql.Text.CharClass
import DeclarativeSql.Text.CharTable
import DeclarativeSql.Text.IdentifierTable
import DeclarativeSql.Text.IntegerToken
import DeclarativeSql.Text.Placeholder
import DeclarativeSql.Text.Positional
import DeclarativeSql.Text.Quoted
import DeclarativeSql.Text.SourceToken
import DeclarativeSql.Text.TextToken
import DeclarativeSql.Value.Basic
import DeclarativeSql.Value.Binary
import DeclarativeSql.Value.Document
import DeclarativeSql.Value.Timestamp

import SqlTree.Text.Blank
import SqlTree.Text.Case
import SqlTree.Json.Printer
import SqlTree.Json.Reader
import SqlTree.Value.Codec
import SqlTree.Tree.Codec
import SqlTree.Plugin
import SqlTree.Read.DataType
import SqlTree.Read.Reference
import SqlTree.Decimal.Reader
import SqlTree.Build.Operand
import SqlTree.Build.Expression
import SqlTree.Build.Clause
import SqlTree.Build.Aggregate
import SqlTree.Build.Filtered
import SqlTree.Build.Select
import SqlTree.Build.Rows
import SqlTree.Build.Insert
import SqlTree.Build.Update
import SqlTree.Build.Merge
import SqlTree.Build.Column
import SqlTree.Build.Table
import SqlTree.Build.Index
import SqlTree.Build.View
import SqlTree.Build.Definition
import SqlTree.Build.Start
import SqlTree.Build.Draft
import SqlTree.Script.Argument
import SqlTree.Script.Expression
import SqlTree.Script.Rows
import SqlTree.Script.Definition
import SqlTree.Script.Reader
import SqlTree.Script.Amend
import SqlTree.Database.Settings
import SqlTree.Database.Driver
import SqlTree.Database.Log
import SqlTree.Database.Handle
import SqlTree.Database.Transaction
import SqlTree.Database.Stream
import SqlTree.Database.Outcome
import SqlTree.Decimal.Whole
import SqlTree.Migrate.Tables
import SqlTree.Migrate.Lock
import SqlTree.Migrate.Plan
import SqlTree.Migrate.Migrator
import SqlTree.Testing.Ledger
import SqlTree.Testing.Stub
import SqlTree.Toml.Basic
import SqlTree.Toml.Reader
import SqlTree.Config
import SqlTree.CommandLine.Arguments
import SqlTree.CommandLine.Command
import SqlTree.CommandLine.Run
import SqlTree.Main
import SqlTree.Proofs.Text.Trimming
import SqlTree.Proofs.Text.Lowering
import SqlTree.Proofs.Json.Order
import SqlTree.Proofs.Json.Parts
import SqlTree.Proofs.Value.Texts
import SqlTree.Proofs.Value.Tagged
import SqlTree.Proofs.Tree.Each
import SqlTree.Proofs.Tree.Para
import SqlTree.Proofs.Tree.Visits
import SqlTree.Proofs.Tree.Rewriting
import SqlTree.Proofs.Tree.Guarding
import SqlTree.Proofs.Tree.Every
import SqlTree.Proofs.Read.Names
import SqlTree.Proofs.Tree.Equality
import SqlTree.Proofs.Tree.Agreement
import SqlTree.Proofs.Tree.Rebuilding
import SqlTree.Proofs.Tree.Walking
import SqlTree.Proofs.Tree.Addresses
import SqlTree.Proofs.Tree.Stored
import SqlTree.Proofs.Tree.Records
import SqlTree.Proofs.Tree.Storage
import SqlTree.Proofs.Pass.Adapting
import SqlTree.Proofs.Pass.Settled
import SqlTree.Proofs.Pass.Recompiling
import SqlTree.Proofs.Pass.Leaves
import SqlTree.Proofs.Render.Congruence
import SqlTree.Proofs.Render.BoundValues
import SqlTree.Proofs.Render.Inlined
import SqlTree.Proofs.Render.Dialects
import SqlTree.Proofs.Render.Renaming
import SqlTree.Proofs.Render.Effective
import SqlTree.Proofs.Render.Parameters
import SqlTree.Proofs.Render.Order
import SqlTree.Proofs.Render.Refusal
import SqlTree.Proofs.Pass.Faults
import SqlTree.Proofs.Pass.Shipped
import SqlTree.Proofs.Pass.Scoping
import SqlTree.Proofs.Pass.Qualifying
import SqlTree.Proofs.Pass.Resolution
import SqlTree.Proofs.Pass.Schemas
import SqlTree.Proofs.Pass.Spelling
import SqlTree.Proofs.Pass.Repeats
import SqlTree.Proofs.Build.Rows
import SqlTree.Proofs.Build.Lists
import SqlTree.Proofs.Read.References
import SqlTree.Proofs.Read.Aliases
import SqlTree.Proofs.Read.DataTypes
import SqlTree.Proofs.Build.Sources
import SqlTree.Proofs.Render.Phrase
import SqlTree.Proofs.Render.Lexeme
import SqlTree.Proofs.Render.Literal
import SqlTree.Proofs.Render.Unquoting
import SqlTree.Proofs.Render.Scanning
import SqlTree.Proofs.Render.Quoting
import SqlTree.Proofs.Render.Comments
import SqlTree.Proofs.Render.Shared
import SqlTree.Proofs.Render.Enclosing
import SqlTree.Proofs.Render.Modifiers
import SqlTree.Proofs.Build.Modifiers
import SqlTree.Proofs.Build.Documents
import SqlTree.Proofs.Condition.Reading
import SqlTree.Proofs.Condition.Filter
import SqlTree.Proofs.Condition.Bits
import SqlTree.Proofs.Expression.Precedence
import SqlTree.Proofs.Condition.Meaning
import SqlTree.Proofs.Expression.Arithmetic
import SqlTree.Proofs.Expression.Regrouping
import SqlTree.Proofs.Condition.Placement
import SqlTree.Proofs.Condition.Chain
import SqlTree.Proofs.Condition.Calls
import SqlTree.Proofs.Condition.Nulls
import SqlTree.Proofs.Definition.Binding
import SqlTree.Proofs.Definition.Columns
import SqlTree.Proofs.Definition.Calls
import SqlTree.Proofs.Compound.Rows
import SqlTree.Proofs.Compound.Reading
import SqlTree.Proofs.Compound.Operands
import SqlTree.Proofs.Compound.Regrouping
import SqlTree.Proofs.Compound.Window
import SqlTree.Proofs.Pass.Windows
import SqlTree.Proofs.Database.Tape
import SqlTree.Proofs.Database.Handles
import SqlTree.Proofs.Database.Closure
import SqlTree.Proofs.Database.Phase
import SqlTree.Proofs.Database.Operations
import SqlTree.Proofs.Database.Returning
import SqlTree.Proofs.Database.Nesting
import SqlTree.Proofs.Database.Accounts
import SqlTree.Proofs.Database.Custody
import SqlTree.Proofs.Database.Releasing
import SqlTree.Proofs.Database.Requests
import SqlTree.Proofs.Database.Blocks
import SqlTree.Proofs.Database.Turns
import SqlTree.Proofs.Database.Delivery
import SqlTree.Proofs.Database.Streaming
import SqlTree.Proofs.Database.Journal
import SqlTree.Proofs.Database.Notes
import SqlTree.Proofs.Database.Logging
import SqlTree.Proofs.Database.Paths
import SqlTree.Proofs.Database.HandlePaths
import SqlTree.Proofs.Database.Execution
import SqlTree.Proofs.Database.Replays
import SqlTree.Proofs.Database.Chunks
import SqlTree.Proofs.Database.Initializing
import SqlTree.Proofs.CommandLine.DryRun
import SqlTree.Proofs.Migrate.Registration
import SqlTree.Proofs.Migrate.Batch
import SqlTree.Proofs.Migrate.Locking
import SqlTree.Proofs.Migrate.Planning
import SqlTree.Proofs.Migrate.Archive
import SqlTree.Proofs.Migrate.Standings
import SqlTree.Proofs.Migrate.Reporting
import SqlTree.Proofs.Migrate.Bookkeeping
import SqlTree.Proofs.Migrate.Fleet
import SqlTree.Proofs.Migrate.History

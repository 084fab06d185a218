import LayeredConfig.CommandLine.Arguments
import LayeredConfig.CommandLine.Command
import LayeredConfig.CommandLine.Run
import LayeredConfig.Configuration
import LayeredConfig.Conversion
import LayeredConfig.Decimal
import LayeredConfig.Description
import LayeredConfig.Document.Draft
import LayeredConfig.Document.Line
import LayeredConfig.Document.Node
import LayeredConfig.Document.Source
import LayeredConfig.Entries
import LayeredConfig.Failure
import LayeredConfig.FileTree
import LayeredConfig.Handle
import LayeredConfig.Items
import LayeredConfig.Json
import LayeredConfig.Json.Schema
import LayeredConfig.Kind
import LayeredConfig.Layers
import LayeredConfig.Main
import LayeredConfig.Numeral
import LayeredConfig.Overrides
import LayeredConfig.Projection
import LayeredConfig.Projection.JsonText
import LayeredConfig.Projection.TomlText
import LayeredConfig.Proofs.CommandLine.Agreement
import LayeredConfig.Proofs.Document.Descent
import LayeredConfig.Proofs.Document.Indentation
import LayeredConfig.Proofs.Document.Joined
import LayeredConfig.Proofs.Document.Legible
import LayeredConfig.Proofs.Document.Line
import LayeredConfig.Proofs.Document.Listing
import LayeredConfig.Proofs.Document.Reading
import LayeredConfig.Proofs.Document.Update
import LayeredConfig.Proofs.Document.Writing
import LayeredConfig.Proofs.Document.Written
import LayeredConfig.Proofs.Entries.Match
import LayeredConfig.Proofs.Entries.Merging
import LayeredConfig.Proofs.Failure.Steps
import LayeredConfig.Proofs.Handle.Access
import LayeredConfig.Proofs.Handle.Append
import LayeredConfig.Proofs.Handle.Canonical
import LayeredConfig.Proofs.Handle.Descent
import LayeredConfig.Proofs.Handle.Edits
import LayeredConfig.Proofs.Handle.Likeness
import LayeredConfig.Proofs.Handle.Operation
import LayeredConfig.Proofs.Handle.Reading
import LayeredConfig.Proofs.Handle.Referenced
import LayeredConfig.Proofs.Handle.Repeated
import LayeredConfig.Proofs.Handle.Roles
import LayeredConfig.Proofs.Handle.Switching
import LayeredConfig.Proofs.Handle.Unchanged
import LayeredConfig.Proofs.Items.Joined
import LayeredConfig.Proofs.Json.Documents
import LayeredConfig.Proofs.Json.Inference
import LayeredConfig.Proofs.Layers.Append
import LayeredConfig.Proofs.Layers.Fresh
import LayeredConfig.Proofs.Layers.Joined
import LayeredConfig.Proofs.Layers.Loading
import LayeredConfig.Proofs.Layers.Naming
import LayeredConfig.Proofs.Layers.Overridden
import LayeredConfig.Proofs.Overrides.Addressed
import LayeredConfig.Proofs.Overrides.Names
import LayeredConfig.Proofs.Overrides.Reapplied
import LayeredConfig.Proofs.Overrides.Reordered
import LayeredConfig.Proofs.Projection.Inferred
import LayeredConfig.Proofs.Projection.JsonText
import LayeredConfig.Proofs.Projection.Success
import LayeredConfig.Proofs.Projection.Walk
import LayeredConfig.Proofs.Reference.Cycles
import LayeredConfig.Proofs.Reference.Failures
import LayeredConfig.Proofs.Reference.Likeness
import LayeredConfig.Proofs.Reference.MultiLevel
import LayeredConfig.Proofs.Reference.Persistence
import LayeredConfig.Proofs.Reference.Semantics
import LayeredConfig.Proofs.Reference.Visibility
import LayeredConfig.Proofs.Session.Basic
import LayeredConfig.Proofs.Session.Grove
import LayeredConfig.Proofs.Session.Isolation
import LayeredConfig.Proofs.Session.Reloading
import LayeredConfig.Proofs.Store.Append
import LayeredConfig.Proofs.Store.Forest
import LayeredConfig.Proofs.Store.Joined
import LayeredConfig.Proofs.Store.Layout
import LayeredConfig.Proofs.Store.Overriding
import LayeredConfig.Proofs.Store.Path
import LayeredConfig.Proofs.Store.Planting
import LayeredConfig.Proofs.Store.Region
import LayeredConfig.Proofs.Store.Roles
import LayeredConfig.Proofs.Store.Unfolding
import LayeredConfig.Proofs.Store.Writes
import LayeredConfig.Proofs.Text.Cut
import LayeredConfig.Proofs.Text.Lines
import LayeredConfig.Proofs.Text.Trim
import LayeredConfig.Proofs.Version.Polynomial
import LayeredConfig.Reference.Resolution
import LayeredConfig.Reference.Template
import LayeredConfig.Snapshot
import LayeredConfig.Store.Basic
import LayeredConfig.Store.Equality
import LayeredConfig.Store.Outline
import LayeredConfig.Store.Value
import LayeredConfig.Text.Blank
import LayeredConfig.Text.CaseTable
import LayeredConfig.Text.EscapeTable
import LayeredConfig.Text.Lines
import LayeredConfig.Text.Lowercase
import LayeredConfig.Text.Quoted
import LayeredConfig.Text.Record
import LayeredConfig.Text.Split
import LayeredConfig.Text.Units
import LayeredConfig.Version

import SparseTiling.Name
import SparseTiling.Error
import SparseTiling.Text.Blank
import SparseTiling.Text.Combining
import SparseTiling.Text.Emoji
import SparseTiling.Text.Wide
import SparseTiling.Text.Width
import SparseTiling.Text.Visible
import SparseTiling.Text.Control
import SparseTiling.Decimal.Binary64
import SparseTiling.Decimal.Shortest
import SparseTiling.Decimal.Style
import SparseTiling.Decimal.Read
import SparseTiling.Layout.Doc
import SparseTiling.Layout.Fill
import SparseTiling.Code.Expr
import SparseTiling.Code.Stmt
import SparseTiling.Code.Writer
import SparseTiling.Code.Print
import SparseTiling.Mesh.Set
import SparseTiling.Mesh.Map
import SparseTiling.Mesh.Nesting
import SparseTiling.Loop.Access
import SparseTiling.Loop
import SparseTiling.Settings.Mode
import SparseTiling.Settings.Coordinates
import SparseTiling.Settings
import SparseTiling.Chain
import SparseTiling.Session
import SparseTiling.Session.Call
import SparseTiling.Session.InPlace
import SparseTiling.Library
import SparseTiling.Inspector.Argument
import SparseTiling.Inspector
import SparseTiling.Executor.Binding
import SparseTiling.Executor
import SparseTiling.Compiler
import SparseTiling.Json
import SparseTiling.Json.Numeral
import SparseTiling.Json.Print
import SparseTiling.Json.Literal
import SparseTiling.Json.Skip
import SparseTiling.Json.Quoted
import SparseTiling.Json.Reader
import SparseTiling.Json.Typed
import SparseTiling.Description
import SparseTiling.Description.Write
import SparseTiling.Description.Read
import SparseTiling.CommandLine.Details
import SparseTiling.CommandLine.Files
import SparseTiling.CommandLine.Options
import SparseTiling.CommandLine.Report
import SparseTiling.CommandLine.Run
import SparseTiling.Listing
import SparseTiling.Main
import SparseTiling.Proofs.Nesting.Depth
import SparseTiling.Proofs.Nesting.Order
import SparseTiling.Proofs.Chain.Reached
import SparseTiling.Proofs.Inspector.Reading
import SparseTiling.Proofs.Inspector.Lossless
import SparseTiling.Proofs.Chain.References
import SparseTiling.Proofs.Code.Effect
import SparseTiling.Proofs.Executor.Ledger
import SparseTiling.Proofs.Executor.Tile
import SparseTiling.Proofs.Executor.Schedule
import SparseTiling.Proofs.Executor.Report
import SparseTiling.Proofs.Executor.Sequential
import SparseTiling.Proofs.Code.Team
import SparseTiling.Proofs.Executor.Worker
import SparseTiling.Proofs.Executor.Region
import SparseTiling.Proofs.Executor.Parallel
import SparseTiling.Proofs.Nesting.Acyclic
import SparseTiling.Proofs.Chain.Declaring
import SparseTiling.Proofs.Decimal.Digits
import SparseTiling.Proofs.Json.Scalars
import SparseTiling.Proofs.Json.Collections
import SparseTiling.Proofs.Json.Yields
import SparseTiling.Proofs.Description.RoundTrip
import SparseTiling.Proofs.Layout.Unbroken
import SparseTiling.Proofs.Code.Literal
import SparseTiling.Proofs.Code.Plain
import SparseTiling.Proofs.Code.Readback
import SparseTiling.Proofs.Code.Emitted
import SparseTiling.Proofs.Code.Scope
import SparseTiling.Proofs.Inspector.Closed
import SparseTiling.Proofs.Executor.Scoped
import SparseTiling.Proofs.Generation.Requirements
import SparseTiling.Proofs.Session.AllOrNothing
import SparseTiling.Proofs.Generation.Closed
import SparseTiling.Proofs.Code.Occurrences
import SparseTiling.Proofs.Inspector.Protocol
import SparseTiling.Proofs.Session.History
import SparseTiling.Proofs.Session.Seed
import SparseTiling.Proofs.Session.Reordering
import SparseTiling.Proofs.Inspector.Distinct
import SparseTiling.Proofs.Layout.Greedy
import SparseTiling.Proofs.Code.Chunks
import SparseTiling.Proofs.Code.Filled
import SparseTiling.Proofs.Executor.Bindings
import SparseTiling.Proofs.Inspector.Handed
import SparseTiling.Proofs.Generation.Names
import SparseTiling.Proofs.Code.Quoted
import SparseTiling.Proofs.Generation.Literals
import SparseTiling.Proofs.Text.Lines
import SparseTiling.Proofs.Code.Lines
import SparseTiling.Proofs.Executor.Wrapped
import SparseTiling.Proofs.Chain.Resolution
import SparseTiling.Proofs.Chain.Redeclaring
import SparseTiling.Proofs.Code.Parts
import SparseTiling.Proofs.Generation.Shape
import SparseTiling.Proofs.Inspector.Shown
import SparseTiling.Proofs.Code.Margins

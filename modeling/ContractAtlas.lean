import ContractAtlas.Artifact.Cache
import ContractAtlas.Artifact.FileStore
import ContractAtlas.Artifact.Path
import ContractAtlas.Artifact.Project
import ContractAtlas.Artifact.Selection
import ContractAtlas.Call.Classification
import ContractAtlas.Call.Expansion
import ContractAtlas.Call.Tree
import ContractAtlas.CommandLine.Arguments
import ContractAtlas.CommandLine.Run
import ContractAtlas.Event
import ContractAtlas.Fault
import ContractAtlas.Journal
import ContractAtlas.Json.Basic
import ContractAtlas.Json.Datum
import ContractAtlas.Json.Document
import ContractAtlas.Json.Order
import ContractAtlas.Json.Printer
import ContractAtlas.Json.Reader
import ContractAtlas.Json.Spelling
import ContractAtlas.Main
import ContractAtlas.Number.Binary64
import ContractAtlas.Proofs.Artifact.FileChange
import ContractAtlas.Proofs.Artifact.Interleaving
import ContractAtlas.Proofs.Artifact.Selection
import ContractAtlas.Proofs.Call.Children
import ContractAtlas.Proofs.Call.Dependencies
import ContractAtlas.Proofs.Call.Expansion
import ContractAtlas.Proofs.Call.FirstReference
import ContractAtlas.Proofs.Call.Forwarding
import ContractAtlas.Proofs.Call.InternalFunctions
import ContractAtlas.Proofs.Call.LowLevel
import ContractAtlas.Proofs.Call.Metrics
import ContractAtlas.Proofs.Call.Options
import ContractAtlas.Proofs.Call.Outline
import ContractAtlas.Proofs.Call.Paths
import ContractAtlas.Proofs.Call.Reachability
import ContractAtlas.Proofs.Call.Sites
import ContractAtlas.Proofs.Call.StaticCalls
import ContractAtlas.Proofs.Call.Subtrees
import ContractAtlas.Proofs.Call.Textual
import ContractAtlas.Proofs.Call.Walk
import ContractAtlas.Proofs.Json.KeyOrder
import ContractAtlas.Proofs.Json.RoundTrip
import ContractAtlas.Proofs.Paired
import ContractAtlas.Proofs.Report.Batch
import ContractAtlas.Proofs.Report.Counters
import ContractAtlas.Proofs.Report.Export
import ContractAtlas.Proofs.Report.Roots
import ContractAtlas.Proofs.Report.Verdict
import ContractAtlas.Proofs.Solidity.ArrayWidth
import ContractAtlas.Proofs.Solidity.Dimensions
import ContractAtlas.Proofs.Solidity.FunctionTypes
import ContractAtlas.Proofs.Solidity.Locations
import ContractAtlas.Proofs.Solidity.Normal
import ContractAtlas.Proofs.Solidity.Widths
import ContractAtlas.Proofs.Source.Excerpt
import ContractAtlas.Proofs.Source.KeyOrder
import ContractAtlas.Proofs.Source.Linearization
import ContractAtlas.Proofs.Source.Malformed
import ContractAtlas.Proofs.Source.Numbering
import ContractAtlas.Proofs.Source.Objects
import ContractAtlas.Proofs.Source.Order
import ContractAtlas.Proofs.Source.Readable
import ContractAtlas.Proofs.Source.Rearrangement
import ContractAtlas.Proofs.Source.Relinking
import ContractAtlas.Proofs.Source.Resolution
import ContractAtlas.Proofs.Source.Samples
import ContractAtlas.Proofs.Source.Shapes
import ContractAtlas.Proofs.Storage.ArraySlots
import ContractAtlas.Proofs.Storage.Blocks
import ContractAtlas.Proofs.Storage.Collection
import ContractAtlas.Proofs.Storage.Flattening
import ContractAtlas.Proofs.Storage.Growth
import ContractAtlas.Proofs.Storage.Inheritance
import ContractAtlas.Proofs.Storage.Leaves
import ContractAtlas.Proofs.Storage.Merging
import ContractAtlas.Proofs.Storage.Numbering
import ContractAtlas.Proofs.Storage.Optimality
import ContractAtlas.Proofs.Storage.Outcome
import ContractAtlas.Proofs.Storage.Packing
import ContractAtlas.Proofs.Storage.Sizing
import ContractAtlas.Proofs.Text.Numerals
import ContractAtlas.Proofs.Text.Split
import ContractAtlas.Proofs.Text.Utf8
import ContractAtlas.Proofs.Traversal
import ContractAtlas.Report.Contract
import ContractAtlas.Report.Export
import ContractAtlas.Report.Options
import ContractAtlas.Report.Roots
import ContractAtlas.Report.Run
import ContractAtlas.Solidity.TypeName
import ContractAtlas.Solidity.Width
import ContractAtlas.Source.Attributes
import ContractAtlas.Source.Compilation
import ContractAtlas.Source.Excerpt
import ContractAtlas.Source.Index
import ContractAtlas.Source.Inheritance
import ContractAtlas.Source.Kind
import ContractAtlas.Source.Node
import ContractAtlas.Source.Reading
import ContractAtlas.Source.Visited
import ContractAtlas.Storage.Collection
import ContractAtlas.Storage.Layout
import ContractAtlas.Storage.Member
import ContractAtlas.Storage.Packing
import ContractAtlas.Storage.SlotKey
import ContractAtlas.Text.Alphanumeric
import ContractAtlas.Text.Blank
import ContractAtlas.Text.Digit
import ContractAtlas.Text.Integer
import ContractAtlas.Text.Printable
import ContractAtlas.Text.Quoted
import ContractAtlas.Text.Split
import ContractAtlas.Text.Utf8
import ContractAtlas.Toml.Assignment
import ContractAtlas.Toml.Line
import ContractAtlas.Toml.Reader
import ContractAtlas.Toml.Scalar
import ContractAtlas.Toml.Value
import ContractAtlas.Yaml.Anchored
import ContractAtlas.Yaml.Meaning
import ContractAtlas.Yaml.Printer
import ContractAtlas.Yaml.Scalar

import Assay.Text.Quoted
import Assay.Text.Search
import Assay.Decimal.Notation
import Assay.Decimal.Reading
import Assay.Path
import Assay.FileTree.Basic
import Assay.Image.Descriptor
import Assay.Image.Basic
import Assay.Image.Sample
import Assay.Zlib
import Assay.Failure
import Assay.Image.Header
import Assay.Image.Writer
import Assay.Comparison.Texts
import Assay.Comparison.Images
import Assay.Value.Record
import Assay.Yaml.Scalar
import Assay.Yaml.Token
import Assay.Yaml.Node
import Assay.Scenario.Codec
import Assay.Scenario.Catalog
import Assay.Scenario.Validation
import Assay.Toml.Document
import Assay.Configuration.Resolution
import Assay.Process.Script
import Assay.Run.Summary
import Assay.Displacement.Refusal
import Assay.Displacement.Options
import Assay.Displacement.Parameters
import Assay.Displacement.Resampling
import Assay.Displacement.Points
import Assay.Displacement.Program
import Assay.Report.Style
import Assay.Report.Lines
import Assay.Report.Json
import Assay.Command.Basic
import Assay.Command.Grammar
import Assay.Command.Arguments
import Assay.Command.Execution
import Assay.Command.Program
import Assay.Run.Schedule
import Assay.Main
import Assay.Proofs.Run.Steps
import Assay.Proofs.Workspace
import Assay.Proofs.Run.Verdict
import Assay.Proofs.Run.Completions
import Assay.Proofs.Run.Schedule
import Assay.Proofs.Image.Safety
import Assay.Proofs.Image.RoundTrip
import Assay.Proofs.Comparison.Blame
import Assay.Proofs.Process.Lookup
import Assay.Proofs.Command.ExitStatus
import Assay.Proofs.Workspace.Templates
import Assay.Proofs.Workspace.Disjoint
import Assay.Proofs.Image.Storage
import Assay.Proofs.Image.Located
import Assay.Proofs.Run.Slots
import Assay.Proofs.Run.Frame
import Assay.Proofs.Run.Repeated
import Assay.Proofs.Run.LeftOver
import Assay.Proofs.Decimal.Distance
import Assay.Proofs.Comparison.Integers
import Assay.Proofs.Run.Deeds
import Assay.Proofs.Command.Tolerances
import Assay.Proofs.Displacement.Calls
import Assay.Proofs.Displacement.BreakOff
import Assay.Proofs.Displacement.Options
import Assay.Proofs.Displacement.Accesses
import Assay.Proofs.Image.Grid
import Assay.Proofs.Command.Listing
import Assay.Proofs.Image.Layout
import Assay.Proofs.Scenario.Format
import Assay.Proofs.Comparison.Symmetry
import Assay.Proofs.Image.Capacity
import Assay.Proofs.Workspace.Anchors
import Assay.Proofs.Configuration.Precedence
import Assay.Proofs.Decimal.Nearest
import Assay.Proofs.Displacement.Points
import Assay.Proofs.Displacement.Samples
import Assay.Proofs.Comparison.Files
import Assay.Proofs.Comparison.Texts
import Assay.Proofs.Displacement.Parameters
import Assay.Proofs.Image.Updates
import Assay.Proofs.Image.Direction
import Assay.Proofs.Process.CommandLine

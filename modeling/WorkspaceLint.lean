import WorkspaceLint.Check
import WorkspaceLint.CommandLine.Arguments
import WorkspaceLint.CommandLine.Commands
import WorkspaceLint.Config.Basic
import WorkspaceLint.Config.File
import WorkspaceLint.Diff.Edits
import WorkspaceLint.Diff.Unified
import WorkspaceLint.FileSystem.Basic
import WorkspaceLint.FileSystem.Disk
import WorkspaceLint.FileSystem.Tree
import WorkspaceLint.Fixer
import WorkspaceLint.Glob.Directory
import WorkspaceLint.Glob.Name
import WorkspaceLint.Json.Basic
import WorkspaceLint.Json.Decoder
import WorkspaceLint.Json.Mismatch
import WorkspaceLint.Json.Printer
import WorkspaceLint.Json.Reader
import WorkspaceLint.Main
import WorkspaceLint.Manifest
import WorkspaceLint.Number.Binary64
import WorkspaceLint.Number.Decimal
import WorkspaceLint.Path
import WorkspaceLint.PatternSet
import WorkspaceLint.Report.Basic
import WorkspaceLint.Report.Listing
import WorkspaceLint.Report.Markdown
import WorkspaceLint.Report.Wire
import WorkspaceLint.Rule.BannedDependencies
import WorkspaceLint.Rule.Basic
import WorkspaceLint.Rule.ConsistentDependencies
import WorkspaceLint.Rule.FileContents
import WorkspaceLint.Rule.Generator
import WorkspaceLint.Rule.Guide
import WorkspaceLint.Rule.Registry
import WorkspaceLint.Rule.StandardTsconfig
import WorkspaceLint.RuleError
import WorkspaceLint.Run
import WorkspaceLint.Schema
import WorkspaceLint.Text.Blank
import WorkspaceLint.Text.CaseData
import WorkspaceLint.Text.EscapedData
import WorkspaceLint.Text.LowerCase
import WorkspaceLint.Text.Quoted
import WorkspaceLint.Time.Instant
import WorkspaceLint.Toml.Basic
import WorkspaceLint.Toml.Quoted
import WorkspaceLint.Toml.Reader
import WorkspaceLint.Toml.Scalar
import WorkspaceLint.Toml.Tables
import WorkspaceLint.Trouble
import WorkspaceLint.Workspace.Context
import WorkspaceLint.Workspace.Members
import WorkspaceLint.Proofs.Workspace.Caches
import WorkspaceLint.Proofs.Run.Visits
import WorkspaceLint.Proofs.Run.CheckMode
import WorkspaceLint.Proofs.Run.Repairs
import WorkspaceLint.Proofs.Run.Manifests
import WorkspaceLint.Proofs.Json.Legible
import WorkspaceLint.Proofs.Json.RoundTrip
import WorkspaceLint.Proofs.Run.DryRun
import WorkspaceLint.Proofs.Path.Components
import WorkspaceLint.Proofs.Path.Order
import WorkspaceLint.Proofs.FileSystem.Tree
import WorkspaceLint.Proofs.Manifest.Blocks
import WorkspaceLint.Proofs.Workspace.Checks
import WorkspaceLint.Proofs.Rule.Dependencies
import WorkspaceLint.Proofs.Rule.Rewrites
import WorkspaceLint.Proofs.Workspace.Members
import WorkspaceLint.Proofs.Run.Confined
import WorkspaceLint.Proofs.Rule.Files
import WorkspaceLint.Proofs.Rule.Settled
import WorkspaceLint.Proofs.Run.Local
import WorkspaceLint.Proofs.Run.Dependencies
import WorkspaceLint.Proofs.Workspace.Order
import WorkspaceLint.Proofs.Run.Alike
import WorkspaceLint.Proofs.Run.MemberOrder
import WorkspaceLint.Proofs.Run.Verdict
import WorkspaceLint.Proofs.Rule.Schemas
import WorkspaceLint.Proofs.Rule.Options
import WorkspaceLint.Proofs.Rule.TsconfigOptions
import WorkspaceLint.Proofs.Path.Normal
import WorkspaceLint.Proofs.Path.Names
import WorkspaceLint.Proofs.Glob.Segments
import WorkspaceLint.Proofs.Glob.Rooted
import WorkspaceLint.Proofs.Rule.Targets
import WorkspaceLint.Proofs.Run.Containment
import WorkspaceLint.Proofs.FileSystem.Disk
import WorkspaceLint.Proofs.FileSystem.Mirror
import WorkspaceLint.Proofs.FileSystem.Expand
import WorkspaceLint.Proofs.Workspace.Mirror
import WorkspaceLint.Proofs.Workspace.Questions
import WorkspaceLint.Proofs.Rule.Mirror
import WorkspaceLint.Proofs.Run.Mirror
import WorkspaceLint.Proofs.Glob.Below
import WorkspaceLint.Proofs.Workspace.Discovery
import WorkspaceLint.Proofs.Workspace.Relocation
import WorkspaceLint.Proofs.Json.Decoding
import WorkspaceLint.Proofs.Report.RoundTrip
import WorkspaceLint.Proofs.Workspace.Sessions
import WorkspaceLint.Proofs.Path.Relative
import WorkspaceLint.Proofs.Rule.References
import WorkspaceLint.Proofs.Rule.Flagged
import WorkspaceLint.Proofs.FileSystem.Consistency
import WorkspaceLint.Proofs.FileSystem.Entries
import WorkspaceLint.Proofs.FileSystem.Spelling
import WorkspaceLint.Proofs.Json.Depth
import WorkspaceLint.Proofs.Fixer.Twice
import WorkspaceLint.Proofs.Path.Walk
import WorkspaceLint.Proofs.Workspace.Distinct
import WorkspaceLint.Proofs.Run.Paths
import WorkspaceLint.Proofs.Run.Hint
import WorkspaceLint.Proofs.Path.Resolution
import WorkspaceLint.Proofs.Json.Canonical
import WorkspaceLint.Proofs.Diff.Lines
import WorkspaceLint.Proofs.Report.Groups
import WorkspaceLint.Proofs.Report.Fences
import WorkspaceLint.Proofs.Report.Blocks
import WorkspaceLint.Proofs.Diff.Marks
import WorkspaceLint.Proofs.Rule.Diffs
import WorkspaceLint.Proofs.Run.Blocks
import WorkspaceLint.Proofs.Rule.FixedBlocks

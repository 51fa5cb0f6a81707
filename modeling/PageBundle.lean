import PageBundle.Artifact.Fingerprint
import PageBundle.Artifact.Merge
import PageBundle.Artifact.Path
import PageBundle.Artifact.Pipeline
import PageBundle.Artifact.Policy
import PageBundle.Artifact.Step
import PageBundle.Artifact.Tools
import PageBundle.Bytes
import PageBundle.Cache.Artifacts
import PageBundle.Cache.Bodies
import PageBundle.Cache.BuildOnce
import PageBundle.Charset.Basic
import PageBundle.Charset.Codec
import PageBundle.Charset.Tables
import PageBundle.Collection.Sorted
import PageBundle.Collection.Table
import PageBundle.CommandLine.Arguments
import PageBundle.CommandLine.Run
import PageBundle.Decimal.Nearest
import PageBundle.Decimal.Read
import PageBundle.Decimal.Shortest
import PageBundle.Digest.Crc32
import PageBundle.Digest.Sha256
import PageBundle.File.Disk
import PageBundle.File.Fault
import PageBundle.File.System
import PageBundle.Gzip.Huffman
import PageBundle.Gzip.Inflate
import PageBundle.Gzip.Level
import PageBundle.Gzip.Member
import PageBundle.Gzip.Statistics
import PageBundle.Log.Directive
import PageBundle.Log.Event
import PageBundle.Log.Filter
import PageBundle.Log.Pattern
import PageBundle.Log.Report
import PageBundle.Main
import PageBundle.Markup.Attribute
import PageBundle.Markup.Comment
import PageBundle.Markup.Piece
import PageBundle.Markup.Rewrite
import PageBundle.Markup.Tag
import PageBundle.Page.Optimizer
import PageBundle.Proofs.Artifact.Contributions
import PageBundle.Proofs.Artifact.Delivery
import PageBundle.Proofs.Artifact.Execution
import PageBundle.Proofs.Artifact.Naming
import PageBundle.Proofs.Artifact.Writing
import PageBundle.Proofs.Cache.Accounts
import PageBundle.Proofs.Cache.Building
import PageBundle.Proofs.Cache.Callers
import PageBundle.Proofs.Cache.Failures
import PageBundle.Proofs.Cache.Stored
import PageBundle.Proofs.CommandLine.Merging
import PageBundle.Proofs.File.Names
import PageBundle.Proofs.File.Walk
import PageBundle.Proofs.Markup.Overlap
import PageBundle.Proofs.Markup.Places
import PageBundle.Proofs.Markup.Reading
import PageBundle.Proofs.Markup.Rescan
import PageBundle.Proofs.Markup.RoundTrip
import PageBundle.Proofs.Markup.TagEnd
import PageBundle.Proofs.Markup.Written
import PageBundle.Proofs.Page.Calls
import PageBundle.Proofs.Page.Immutability
import PageBundle.Proofs.Page.Independence
import PageBundle.Proofs.Page.Visits
import PageBundle.Proofs.Resource.Discovery
import PageBundle.Proofs.Resource.Membership
import PageBundle.Proofs.Script.Alike
import PageBundle.Proofs.Script.BlockComment
import PageBundle.Proofs.Script.Characters
import PageBundle.Proofs.Script.Edge
import PageBundle.Proofs.Script.Idempotence
import PageBundle.Proofs.Script.LineBreak
import PageBundle.Proofs.Script.LineEnds
import PageBundle.Proofs.Script.Literal
import PageBundle.Proofs.Script.NormalForm
import PageBundle.Proofs.Script.Provenance
import PageBundle.Proofs.Script.Reading
import PageBundle.Proofs.Script.RegexLine
import PageBundle.Proofs.Script.Run
import PageBundle.Proofs.Script.Separation
import PageBundle.Proofs.Script.Verbatim
import PageBundle.Proofs.Script.WhiteSpace
import PageBundle.Proofs.Store.Boundary
import PageBundle.Proofs.Store.Interchange
import PageBundle.Proofs.Store.Placement
import PageBundle.Proofs.Store.Resolution
import PageBundle.Proofs.Text.Lines
import PageBundle.Proofs.Text.Search
import PageBundle.Proofs.Text.Utf8
import PageBundle.Resource.Kind
import PageBundle.Resource.Reference
import PageBundle.Resource.ReferenceSet
import PageBundle.Script.Machine
import PageBundle.Script.Minify
import PageBundle.Settings.Basic
import PageBundle.Settings.Load
import PageBundle.Settings.Source
import PageBundle.Store.Basic
import PageBundle.Store.Deployment
import PageBundle.Store.Error
import PageBundle.Store.Memory
import PageBundle.StyleSheet.Cascade
import PageBundle.StyleSheet.Minify
import PageBundle.StyleSheet.Rule
import PageBundle.StyleSheet.Token
import PageBundle.Text.Alphanumeric
import PageBundle.Text.Blank
import PageBundle.Text.Hex
import PageBundle.Text.Letter
import PageBundle.Text.Lines
import PageBundle.Text.Offset
import PageBundle.Text.Quoted
import PageBundle.Text.Search
import PageBundle.Text.Utf8
import PageBundle.Value.Basic
import PageBundle.Value.Json
import PageBundle.Value.Overlay
import PageBundle.Value.Toml

import LogMarkers.Artifact
import LogMarkers.BuildScript
import LogMarkers.Crate.Import
import LogMarkers.Crate.Load
import LogMarkers.Crate.Lowering
import LogMarkers.Crate.Sources
import LogMarkers.Decimal.Rounding
import LogMarkers.Diagnostic
import LogMarkers.Digest.Blake3
import LogMarkers.Disk.Basic
import LogMarkers.Disk.Path
import LogMarkers.Emission
import LogMarkers.Failure
import LogMarkers.Finding
import LogMarkers.Host
import LogMarkers.Json.Quoted
import LogMarkers.Json.Reader
import LogMarkers.Json.Value
import LogMarkers.LogLevel
import LogMarkers.Marker
import LogMarkers.Renderer
import LogMarkers.Run
import LogMarkers.Scope.Basic
import LogMarkers.Scope.Model
import LogMarkers.Scope.Resolve
import LogMarkers.Settings
import LogMarkers.Sink.Basic
import LogMarkers.Sink.Directory
import LogMarkers.Sink.Manifest
import LogMarkers.Sink.Memory
import LogMarkers.Source.Comment
import LogMarkers.Source.File
import LogMarkers.Source.Grammar.Basic
import LogMarkers.Source.Grammar.Expressions
import LogMarkers.Source.Grammar.Items
import LogMarkers.Source.Grammar.Patterns
import LogMarkers.Source.Grammar.Types
import LogMarkers.Source.Item
import LogMarkers.Source.Lexer
import LogMarkers.Source.Number
import LogMarkers.Source.Operator
import LogMarkers.Source.Parser
import LogMarkers.Source.Quoted
import LogMarkers.Source.Token
import LogMarkers.Symbol
import LogMarkers.Table
import LogMarkers.Text.Blank
import LogMarkers.Text.Hex
import LogMarkers.Text.Identifier
import LogMarkers.Text.IdentifierRanges
import LogMarkers.Text.PathText
import LogMarkers.Tree.Basic
import LogMarkers.Tree.Kind
import LogMarkers.Tree.WrittenPath
import LogMarkers.Proofs.Crate.EndlessLoading
import LogMarkers.Proofs.Crate.Generics
import LogMarkers.Proofs.Crate.Links
import LogMarkers.Proofs.Crate.LoadedModules
import LogMarkers.Proofs.Crate.Loading
import LogMarkers.Proofs.Crate.ModuleTree
import LogMarkers.Proofs.Crate.Names
import LogMarkers.Proofs.Crate.NodeModules
import LogMarkers.Proofs.Crate.OwnerSearch
import LogMarkers.Proofs.Crate.Owners
import LogMarkers.Proofs.Crate.PathHeads
import LogMarkers.Proofs.Crate.Placement
import LogMarkers.Proofs.Crate.SelfTypes
import LogMarkers.Proofs.Crate.Steps
import LogMarkers.Proofs.Crate.UseTrees
import LogMarkers.Proofs.Disk.Places
import LogMarkers.Proofs.Emission.ArtifactNames
import LogMarkers.Proofs.Emission.Interleaving
import LogMarkers.Proofs.Emission.MemberNames
import LogMarkers.Proofs.Emission.Owners
import LogMarkers.Proofs.Renderer.Extension
import LogMarkers.Proofs.Renderer.MarkerFunctions
import LogMarkers.Proofs.Run.Cancellation
import LogMarkers.Proofs.Run.GeneratedCode
import LogMarkers.Proofs.Run.GenericOwners
import LogMarkers.Proofs.Run.MarkerAccounts
import LogMarkers.Proofs.Run.MissingOwners
import LogMarkers.Proofs.Run.Prefilter
import LogMarkers.Proofs.Run.SharedGroups
import LogMarkers.Proofs.Run.SourcePlaces
import LogMarkers.Proofs.Scope.AliasChains
import LogMarkers.Proofs.Scope.Canonical
import LogMarkers.Proofs.Scope.Comparison
import LogMarkers.Proofs.Scope.ExternalPaths
import LogMarkers.Proofs.Scope.GlobImports
import LogMarkers.Proofs.Scope.GuardStack
import LogMarkers.Proofs.Scope.Lookup
import LogMarkers.Proofs.Scope.RelativePaths
import LogMarkers.Proofs.Scope.Routines
import LogMarkers.Proofs.Scope.WellFormed
import LogMarkers.Proofs.Sink.Confinement
import LogMarkers.Proofs.Sink.DirectoryRun
import LogMarkers.Proofs.Sink.EarlierRuns
import LogMarkers.Proofs.Sink.FailedWrites
import LogMarkers.Proofs.Sink.ManifestOnDisk
import LogMarkers.Proofs.Sink.ManifestText
import LogMarkers.Proofs.Sink.MarkersFile
import LogMarkers.Proofs.Sink.MemoryHistory
import LogMarkers.Proofs.Sink.MemoryRun
import LogMarkers.Proofs.Sink.RepeatedRuns
import LogMarkers.Proofs.Source.ImplBlock
import LogMarkers.Proofs.Source.MarkerFunction
import LogMarkers.Proofs.Source.Parsing
import LogMarkers.Proofs.Source.Reading
import LogMarkers.Proofs.Text.ByteOrder
import LogMarkers.Proofs.Text.PathNames
import LogMarkers.Proofs.Tree.Nesting
import LogMarkers.Proofs.Tree.PreOrder
import LogMarkers.Proofs.Tree.Spelling

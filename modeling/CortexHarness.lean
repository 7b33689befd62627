import CortexHarness.Library.Table
import CortexHarness.Library.Run
import CortexHarness.Library.Json
import CortexHarness.Library.Python
import CortexHarness.Journal.Models
import CortexHarness.Journal.Identity
import CortexHarness.Journal.Supersession
import CortexHarness.Library.Clients
import CortexHarness.Journal.Operation
import CortexHarness.Journal.Client
import CortexHarness.Journal.NodeFirstClients
import CortexHarness.Storage.Admission
import CortexHarness.Storage.Generation
import CortexHarness.Storage.Ingestion
import CortexHarness.Library.Firsts
import CortexHarness.Library.Dict
import CortexHarness.Evidence.Contract
import CortexHarness.Evidence.Merge
import CortexHarness.Library.Fallible
import CortexHarness.Evidence.Sites
import CortexHarness.Evidence.Strict
import CortexHarness.Library.Merging
import CortexHarness.Evidence.Order
import CortexHarness.Library.Upsert
import CortexHarness.Evidence.CallEdges
import CortexHarness.Evidence.Publication
import CortexHarness.Library.Offsets
import CortexHarness.Proc.SourceMap
import CortexHarness.Proc.LineLaw
import CortexHarness.Proc.Masking
import CortexHarness.Proc.Alignment
import CortexHarness.Library.Rights
import CortexHarness.Journal.GraphWrites
import CortexHarness.Journal.GraphWriteClients
import CortexHarness.Journal.LostWrites
import CortexHarness.Library.Loops
import CortexHarness.Library.Segments
import CortexHarness.Link.Paging
import CortexHarness.Link.Normalizers
import CortexHarness.Library.Latest
import CortexHarness.Link.Scoring
import CortexHarness.Link.Build
import CortexHarness.Link.Rebuild
import CortexHarness.Link.View
import CortexHarness.Sync.Scan
import CortexHarness.Sync.Run
import CortexHarness.Sync.Deletions
import CortexHarness.Sync.Changes
import CortexHarness.Sync.Baseline
import CortexHarness.Sync.Failure
import CortexHarness.Sync.Recovery
import CortexHarness.Library.Stopping
import CortexHarness.Transfer.Bundle
import CortexHarness.Transfer.Import
import CortexHarness.Vb6.Registry
import CortexHarness.Vb6.Resolver
import CortexHarness.Vb6.Calls
import CortexHarness.Library.Points
import CortexHarness.Vectors.Documents
import CortexHarness.Vectors.Sync
import CortexHarness.Library.Trace
import CortexHarness.Semantic.Scheduler
import CortexHarness.Ladybug.Schema
import CortexHarness.Ladybug.Rows
import CortexHarness.Ladybug.Refinement
import CortexHarness.Ladybug.Cleanup
import CortexHarness.Vectors.Marker
import CortexHarness.Library.Best
import CortexHarness.Messages.Scan
import CortexHarness.Messages.Pipeline
import CortexHarness.Docs.Graph
import CortexHarness.Docs.Projects
import CortexHarness.Docs.Convergence
import CortexHarness.Journal.ArtifactStore
import CortexHarness.Journal.Purge
import CortexHarness.Journal.Status
import CortexHarness.Journal.QueryContract
import CortexHarness.Journal.Constructors
import CortexHarness.Journal.Executor
import CortexHarness.Library.Executions
import CortexHarness.Journal.Endpoints
import CortexHarness.Library.Cypher
import CortexHarness.Journal.EndpointAudit
import CortexHarness.Evidence.Staging
import CortexHarness.Evidence.Effects
import CortexHarness.Evidence.Coverage
import CortexHarness.Proc.Sidecar
import CortexHarness.Proc.Lexical
import CortexHarness.Proc.Scanner
import CortexHarness.Proc.Regions
import CortexHarness.Proc.Statements
import CortexHarness.Proc.Payload
import CortexHarness.Library.Recent
import CortexHarness.Evidence.Ledger
import CortexHarness.Sync.GitDiff
import CortexHarness.Library.PosixPath
import CortexHarness.Cplus.CompileArguments
import CortexHarness.Library.Matcher
import CortexHarness.Sync.OwnerManifest
import CortexHarness.Sync.Classifiers
import CortexHarness.Storage.Atomicity
import CortexHarness.Library.Url
import CortexHarness.Storage.Targets
import CortexHarness.Storage.Credentials
import CortexHarness.Library.Text
import CortexHarness.Library.Replace
import CortexHarness.Link.Spelling
import CortexHarness.Link.Snippets
import CortexHarness.Api.Matching
import CortexHarness.Api.Retrieval
import CortexHarness.Api.Stability
import CortexHarness.Link.ShaJoins
import CortexHarness.Storage.Migration
import CortexHarness.Cplus.Validation
import CortexHarness.Cplus.Accounting
import CortexHarness.Library.Ranking
import CortexHarness.Link.OrderFree
import CortexHarness.Library.Rewriting
import CortexHarness.Api.UrlPattern
import CortexHarness.Api.Canonical
import CortexHarness.Link.Entities
import CortexHarness.Library.Casefold
import CortexHarness.Storage.Registered
import CortexHarness.Library.Laminar
import CortexHarness.Vb6.WithBlocks
import CortexHarness.Cplus.ResourceScript
import CortexHarness.Cplus.ResourceIds
import CortexHarness.Cplus.ResourceConditions
import CortexHarness.Library.Words
import CortexHarness.Cplus.Dependencies
import CortexHarness.Library.JsonEq
import CortexHarness.Cplus.Differential
import CortexHarness.Vb6.Rerun
import CortexHarness.Library.Reorder
import CortexHarness.Vb6.Reorder
import CortexHarness.Library.Search
import CortexHarness.Vb.Blocks
import CortexHarness.Vb.Nesting
import CortexHarness.Library.Measure
import CortexHarness.Common.ParseDamage
import CortexHarness.Library.Separator
import CortexHarness.Ladybug.CompositeKeys
import CortexHarness.Library.Walks
import CortexHarness.Common.GraphExpansion
import CortexHarness.Library.Pointers
import CortexHarness.Sync.Processes
import CortexHarness.Docs.OneByOne
import CortexHarness.Library.FirstWins
import CortexHarness.Docs.Attachments
import CortexHarness.Cplus.ResourceFields
import CortexHarness.Cplus.CacheIdentity
import CortexHarness.Library.KnownHash
import CortexHarness.Docs.Gliner
import CortexHarness.Library.ReverseIndex
import CortexHarness.Proc.Includes
import CortexHarness.Vectors.LayoutCache

import Proximity.Artifact.Basic
import Proximity.Artifact.Codec
import Proximity.Artifact.Container
import Proximity.Artifact.Format
import Proximity.Batch
import Proximity.CommandLine.Command
import Proximity.CommandLine.Options
import Proximity.CommandLine.Report
import Proximity.CommandLine.Run
import Proximity.Config
import Proximity.Error
import Proximity.Files.Store
import Proximity.Files.Tree
import Proximity.Guarded.Access
import Proximity.Guarded.Linking
import Proximity.Guarded.Requests
import Proximity.Guarded.Training
import Proximity.Guarded.Trees
import Proximity.Guarded.Walks
import Proximity.Hash.Blake3
import Proximity.Host.Engine
import Proximity.Host.Metrics
import Proximity.Host.Pools
import Proximity.Host.Registry
import Proximity.Host.Request
import Proximity.Host.Trace
import Proximity.Host.VectorFile
import Proximity.Index.Basic
import Proximity.Index.Clustering
import Proximity.Index.Consistency
import Proximity.Index.Description
import Proximity.Index.Flat
import Proximity.Index.Graph
import Proximity.Index.IdMap
import Proximity.Index.InvertedFile
import Proximity.Index.Links
import Proximity.Index.Settings
import Proximity.Index.Tuning
import Proximity.Json.Basic
import Proximity.Json.Number
import Proximity.Json.Reader
import Proximity.Main
import Proximity.Number.Count
import Proximity.Number.Decimal
import Proximity.Number.Digits
import Proximity.Number.Double
import Proximity.Number.Format
import Proximity.Number.Shortest
import Proximity.Number.Single
import Proximity.Number.Text
import Proximity.Parameters
import Proximity.Proofs.AllOrNothing
import Proximity.Proofs.Answering
import Proximity.Proofs.Atomicity
import Proximity.Proofs.Batching
import Proximity.Proofs.Beam
import Proximity.Proofs.Checks
import Proximity.Proofs.Clustering
import Proximity.Proofs.Codec.Laws
import Proximity.Proofs.Codec.Trees
import Proximity.Proofs.CommandLine.Rows
import Proximity.Proofs.Configuration
import Proximity.Proofs.Consistency
import Proximity.Proofs.Construction
import Proximity.Proofs.Container
import Proximity.Proofs.Contents
import Proximity.Proofs.Convergence
import Proximity.Proofs.Crowding
import Proximity.Proofs.Descent
import Proximity.Proofs.Descriptions
import Proximity.Proofs.Draws
import Proximity.Proofs.Exhaustive
import Proximity.Proofs.Files
import Proximity.Proofs.Filling
import Proximity.Proofs.Grammar
import Proximity.Proofs.GroundLevel
import Proximity.Proofs.Growth
import Proximity.Proofs.Guarded.Access
import Proximity.Proofs.Guarded.Inspection
import Proximity.Proofs.Guarded.Linking
import Proximity.Proofs.Guarded.Requests
import Proximity.Proofs.Guarded.Training
import Proximity.Proofs.Guarded.Trees
import Proximity.Proofs.Guarded.Walks
import Proximity.Proofs.Hamming
import Proximity.Proofs.HitCounts
import Proximity.Proofs.Labels
import Proximity.Proofs.Levels
import Proximity.Proofs.Links
import Proximity.Proofs.LocalOptima
import Proximity.Proofs.Overlay
import Proximity.Proofs.Partition
import Proximity.Proofs.Paths
import Proximity.Proofs.Persistence
import Proximity.Proofs.Places
import Proximity.Proofs.PostingLists
import Proximity.Proofs.Preservation
import Proximity.Proofs.Probing
import Proximity.Proofs.RangeSearch
import Proximity.Proofs.Ranking
import Proximity.Proofs.Reachability
import Proximity.Proofs.Recall
import Proximity.Proofs.Recency
import Proximity.Proofs.Refining
import Proximity.Proofs.Requests.Accounting
import Proximity.Proofs.Requests.Decisions
import Proximity.Proofs.Requests.Durability
import Proximity.Proofs.Requests.Flows
import Proximity.Proofs.Requests.Making
import Proximity.Proofs.Requests.Results
import Proximity.Proofs.Requests.Separation
import Proximity.Proofs.Rounding
import Proximity.Proofs.Safety
import Proximity.Proofs.SearchContract
import Proximity.Proofs.SearchTuning
import Proximity.Proofs.Searchable
import Proximity.Proofs.Selection
import Proximity.Proofs.SettingRanges
import Proximity.Proofs.Settings
import Proximity.Proofs.SmallGraphs
import Proximity.Proofs.Spaces
import Proximity.Proofs.Staging
import Proximity.Proofs.Streaming
import Proximity.Proofs.Tuning
import Proximity.Proofs.Vectors
import Proximity.Random.Generator
import Proximity.Random.Sample
import Proximity.Search.Beam
import Proximity.Search.Best
import Proximity.Search.Candidate
import Proximity.Space.Basic
import Proximity.Space.Measure
import Proximity.Text.Blank
import Proximity.Text.CharacterSet
import Proximity.Text.Extending
import Proximity.Text.Quoted
import Proximity.Text.Unseen
import Proximity.Toml.Basic
import Proximity.Toml.Reader
import Proximity.Toml.Scalar
import Proximity.Transfer
import Proximity.Words

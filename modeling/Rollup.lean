import Rollup.Accumulator
import Rollup.Buffer
import Rollup.Calendar
import Rollup.Chunks
import Rollup.Clock
import Rollup.Config
import Rollup.Counters
import Rollup.Distribution
import Rollup.Double
import Rollup.Downsampler
import Rollup.Duration
import Rollup.Engine.Basic
import Rollup.Engine.Flow
import Rollup.Engine.Round
import Rollup.Export
import Rollup.Fanout
import Rollup.Fault
import Rollup.Fields
import Rollup.FirstLevel
import Rollup.Graph.Builder
import Rollup.Graph.Output
import Rollup.Graph.Registry
import Rollup.Histogram
import Rollup.Identity
import Rollup.Level
import Rollup.Listing
import Rollup.Part
import Rollup.Partitioner
import Rollup.Persister
import Rollup.Pipeline
import Rollup.Proofs.Abreast
import Rollup.Proofs.Accounts
import Rollup.Proofs.Arrivals
import Rollup.Proofs.Assembly
import Rollup.Proofs.Audiences
import Rollup.Proofs.BatchReports
import Rollup.Proofs.BatchSizes
import Rollup.Proofs.BrokenRounds
import Rollup.Proofs.BuilderCalls
import Rollup.Proofs.Building
import Rollup.Proofs.CacheCoherence
import Rollup.Proofs.Calls
import Rollup.Proofs.ChainedQueues
import Rollup.Proofs.Circles
import Rollup.Proofs.ClockReadings
import Rollup.Proofs.Closing
import Rollup.Proofs.Conservation
import Rollup.Proofs.Containment
import Rollup.Proofs.Copies
import Rollup.Proofs.Countings
import Rollup.Proofs.Creation
import Rollup.Proofs.Dates
import Rollup.Proofs.Dealing
import Rollup.Proofs.Decisions
import Rollup.Proofs.Decoding
import Rollup.Proofs.Delivery
import Rollup.Proofs.Drafting
import Rollup.Proofs.Endings
import Rollup.Proofs.Enrolment
import Rollup.Proofs.EntityTexts
import Rollup.Proofs.Entries
import Rollup.Proofs.Expiry
import Rollup.Proofs.FailedStarts
import Rollup.Proofs.Flattening
import Rollup.Proofs.Forecasts
import Rollup.Proofs.Forgetting
import Rollup.Proofs.Forwarding
import Rollup.Proofs.FrontFlow
import Rollup.Proofs.FrontIntakes
import Rollup.Proofs.Generations
import Rollup.Proofs.GraphChecks
import Rollup.Proofs.Groupings
import Rollup.Proofs.Ingestion
import Rollup.Proofs.Insertions
import Rollup.Proofs.IntakeRuns
import Rollup.Proofs.Intakes
import Rollup.Proofs.Interchange
import Rollup.Proofs.Isolation
import Rollup.Proofs.JointRound
import Rollup.Proofs.KeyOrder
import Rollup.Proofs.Levels
import Rollup.Proofs.Lifetimes
import Rollup.Proofs.Loading
import Rollup.Proofs.MergeOrder
import Rollup.Proofs.Merging
import Rollup.Proofs.Mirrors
import Rollup.Proofs.Owners
import Rollup.Proofs.PackedNumbers
import Rollup.Proofs.Passes
import Rollup.Proofs.Percentiles
import Rollup.Proofs.PersisterStates
import Rollup.Proofs.PoolFlow
import Rollup.Proofs.Preparation
import Rollup.Proofs.PromptFlushes
import Rollup.Proofs.QueueAccounts
import Rollup.Proofs.QueueFlow
import Rollup.Proofs.Ranks
import Rollup.Proofs.Rebuilding
import Rollup.Proofs.RecordLaws
import Rollup.Proofs.Refinement
import Rollup.Proofs.Reports
import Rollup.Proofs.Retirement
import Rollup.Proofs.RollUp
import Rollup.Proofs.Routes
import Rollup.Proofs.RowEffects
import Rollup.Proofs.Rows
import Rollup.Proofs.Searches
import Rollup.Proofs.ServedQueues
import Rollup.Proofs.Settlement
import Rollup.Proofs.Shutdown
import Rollup.Proofs.SkippedRounds
import Rollup.Proofs.StationRound
import Rollup.Proofs.StationRuns
import Rollup.Proofs.StorageKeys
import Rollup.Proofs.TableMatch
import Rollup.Proofs.Tallies
import Rollup.Proofs.Tending
import Rollup.Proofs.Tiling
import Rollup.Proofs.Upkeep
import Rollup.Proofs.Wiring
import Rollup.Proofs.Witnesses
import Rollup.Queue.Basic
import Rollup.Queue.Consumer
import Rollup.Queue.Pool
import Rollup.Record.Average
import Rollup.Record.Basic
import Rollup.Record.Latest
import Rollup.Record.Peak
import Rollup.Record.Percentile
import Rollup.Record.Rate
import Rollup.Record.Sum
import Rollup.Request
import Rollup.Rounds
import Rollup.RowStore
import Rollup.Sessions
import Rollup.Settings.Reader
import Rollup.Settings.Scalar
import Rollup.Settings.Text
import Rollup.Settings.Value
import Rollup.TimeBucket
import Rollup.Trial
import Rollup.Trial.Basic
import Rollup.Trial.Engines
import Rollup.Trial.Graphs
import Rollup.Trial.Pipelines
import Rollup.Trial.Queues
import Rollup.Trial.Relay
import Rollup.Trial.Requests
import Rollup.Trial.Rounds
import Rollup.WallTime
import Rollup.Window

import RetentionEngine.Common.Lists
import RetentionEngine.Common.Dict
import RetentionEngine.Common.Counting
import RetentionEngine.Common.MultipleChoice
import RetentionEngine.Common.Run
import RetentionEngine.Common.Text
import RetentionEngine.Common.UnionFind
import RetentionEngine.Contracts.Hashes
import RetentionEngine.Contracts.Recommendation
import RetentionEngine.Contracts.Decision
import RetentionEngine.Contracts.Event
import RetentionEngine.Contracts.Explanation
import RetentionEngine.Schema.Columns
import RetentionEngine.Schema.Events
import RetentionEngine.Schema.Recommendation
import RetentionEngine.Schema.Roles
import RetentionEngine.Store.Recommendations
import RetentionEngine.Store.Lifecycle
import RetentionEngine.Store.Concurrent
import RetentionEngine.Queue.PipelineRun
import RetentionEngine.Queue.Terminal
import RetentionEngine.Queue.Budget
import RetentionEngine.Queue.SingleWorker
import RetentionEngine.Ingest.Stage
import RetentionEngine.Ingest.AtMostOnce
import RetentionEngine.PolicyGuard
import RetentionEngine.Ranker
import RetentionEngine.Measurement.Assignment
import RetentionEngine.Measurement.Lift
import RetentionEngine.Measurement.Chunks
import RetentionEngine.Measurement.Console
import RetentionEngine.GraphSignal.Circles
import RetentionEngine.GraphSignal.Components
import RetentionEngine.GraphSignal.Edges
import RetentionEngine.GraphSignal.SimpleGraph
import RetentionEngine.GraphSignal.Snapshot
import RetentionEngine.ChurnRisk.SnapshotFeatures
import RetentionEngine.ChurnRisk.Context
import RetentionEngine.ChurnRisk.Features
import RetentionEngine.ChurnRisk.Offsets
import RetentionEngine.ChurnRisk.ScorerRanges
import RetentionEngine.Allocator.Items
import RetentionEngine.Allocator.Knapsack
import RetentionEngine.Allocator.Greedy
import RetentionEngine.Allocator.Selection
import RetentionEngine.Pipeline.Scored
import RetentionEngine.Pipeline.Candidates
import RetentionEngine.Pipeline.Policy
import RetentionEngine.Persistence.Segments
import RetentionEngine.Persistence.Session
import RetentionEngine.Pipeline.Allocate
import RetentionEngine.Pipeline.Picks
import RetentionEngine.Pipeline.HardRules
import RetentionEngine.Pipeline.Holdout
import RetentionEngine.Pipeline.Contact
import RetentionEngine.Pipeline.Persist
import RetentionEngine.Pipeline.Retry
import RetentionEngine.Explain.FactSheet
import RetentionEngine.Explain.Template
import RetentionEngine.Pipeline.Explain
import RetentionEngine.Pipeline.RunPipeline
import RetentionEngine.Pipeline.FrequencyCap
import RetentionEngine.Pipeline.DecisionLog
import RetentionEngine.Pipeline.Money
import RetentionEngine.Pipeline.AllocationTable
import RetentionEngine.Pipeline.FullRecord
import RetentionEngine.Pipeline.GroupMembers
import RetentionEngine.Pipeline.OneStory
import RetentionEngine.Pipeline.Lending
import RetentionEngine.Pipeline.Experiment
import RetentionEngine.Feedback.LabeledExamples
import RetentionEngine.Feedback.Outcomes
import RetentionEngine.Feedback.Leak
import RetentionEngine.Feedback.Treatment
import RetentionEngine.Feedback.RoundTrip
import RetentionEngine.Feedback.UsedInContext
import RetentionEngine.Feedback.Incremental
import RetentionEngine.Python.Round
import RetentionEngine.Python.Text
import RetentionEngine.Python.Json
import RetentionEngine.Python.Decimal
import RetentionEngine.IngestMapping.Normalize
import RetentionEngine.IngestMapping.Settles
import RetentionEngine.Ingest.InMemory
import RetentionEngine.Ingest.Batches
import RetentionEngine.ExternalSignals.Signal
import RetentionEngine.ExternalSignals.Feed
import RetentionEngine.ExternalSignals.FeedOrder
import RetentionEngine.Api.IngestBatch
import RetentionEngine.Common.OffsetPaging
import RetentionEngine.Common.SortKeys
import RetentionEngine.Api.PostOutcome
import RetentionEngine.Api.RateLimit
import RetentionEngine.Api.Recommendations
import RetentionEngine.Allocator.Optimal
import RetentionEngine.Allocator.Decisions
import RetentionEngine.Allocator.Exhausted
import RetentionEngine.Allocator.OrderFree
import RetentionEngine.Pipeline.Replicas
import RetentionEngine.Common.Munch
import RetentionEngine.Common.Memo
import RetentionEngine.Common.Choices
import RetentionEngine.Explain.Validator
import RetentionEngine.Explain.UnknownNumbers
import RetentionEngine.Explain.Closing
import RetentionEngine.Explain.ShownNumbers
import RetentionEngine.Explain.TemplatePasses
import RetentionEngine.Explain.Narrator
import RetentionEngine.Python.Base64
import RetentionEngine.Python.Codecs
import RetentionEngine.Python.Digits
import RetentionEngine.Python.Dumps
import RetentionEngine.Python.Loads
import RetentionEngine.Python.JsonText
import RetentionEngine.Python.JsonOrder
import RetentionEngine.Python.JsonRoundTrip
import RetentionEngine.Python.LoadsDumps
import RetentionEngine.Python.Uuid
import RetentionEngine.Api.ConsoleSession
import RetentionEngine.Api.ConsoleGate
import RetentionEngine.Common.Lockstep
import RetentionEngine.Worker.MemoryStore
import RetentionEngine.Worker.Stages
import RetentionEngine.Worker.StagesKeep
import RetentionEngine.Worker.Filed
import RetentionEngine.Worker.Isolation
import RetentionEngine.Worker.Histories
import RetentionEngine.Worker.StageLog
import RetentionEngine.Queue.Drain
import RetentionEngine.Common.RowSecurity
import RetentionEngine.Schema.TenantSession
import RetentionEngine.Api.Approvals
import RetentionEngine.Api.Accountability
import RetentionEngine.Common.Keyed
import RetentionEngine.IngestMapping.Onboarding

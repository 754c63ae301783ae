import LlmProxy.Lib.Dict
import LlmProxy.Lib.Json
import LlmProxy.Lib.JsonString
import LlmProxy.Lib.JsonText
import LlmProxy.Lib.LeastRecent
import LlmProxy.Lib.Logged
import LlmProxy.Lib.Newest
import LlmProxy.Lib.Presence
import LlmProxy.Lib.PyNum
import LlmProxy.Lib.Pool
import LlmProxy.Lib.PyList
import LlmProxy.Lib.PyStr
import LlmProxy.Lib.Regex
import LlmProxy.Lib.Result
import LlmProxy.Lib.SlidingWindow
import LlmProxy.Lib.Table
import LlmProxy.Lib.Trace
import LlmProxy.Lib.TtlCache
import LlmProxy.Runs.State
import LlmProxy.Runs.Row
import LlmProxy.Runs.Worker
import LlmProxy.Runs.Terminal
import LlmProxy.Runs.Safety
import LlmProxy.Runs.EventBus
import LlmProxy.Runs.Stream
import LlmProxy.Runs.EventSeq
import LlmProxy.Runs.History
import LlmProxy.Runs.EventLog
import LlmProxy.Runs.Conversation
import LlmProxy.Runs.Idempotency
import LlmProxy.Runs.Intake
import LlmProxy.Runs.Replication
import LlmProxy.Runs.Replicas
import LlmProxy.Runs.RateLimit
import LlmProxy.Cluster.Stamp
import LlmProxy.Providers.Row
import LlmProxy.Cluster.BlockedIps
import LlmProxy.Cluster.Users
import LlmProxy.Cluster.ApiKeys
import LlmProxy.Cluster.KeyRegister
import LlmProxy.Cluster.Providers
import LlmProxy.Cluster.Sync
import LlmProxy.Cluster.PeerCosts
import LlmProxy.Cluster.Resurrection
import LlmProxy.Compliance.CompanyMap
import LlmProxy.Compliance.Policy
import LlmProxy.Compliance.AuditChain
import LlmProxy.Compliance.AuditRuns
import LlmProxy.Routing.Binding
import LlmProxy.Routing.Lmrh
import LlmProxy.Routing.HintParser
import LlmProxy.Routing.RefuseTolerance
import LlmProxy.Routing.Profile
import LlmProxy.Routing.Router
import LlmProxy.Routing.Selection
import LlmProxy.Routing.Exclusion
import LlmProxy.Routing.Compliance
import LlmProxy.Providers.Background
import LlmProxy.Providers.Admin
import LlmProxy.Airi.Proposals
import LlmProxy.Airi.LastEnabled
import LlmProxy.Airi.Reverts
import LlmProxy.Routing.ExternalRotation
import LlmProxy.Lmrh.Snapshot
import LlmProxy.Lmrh.Views
import LlmProxy.Lmrh.Build
import LlmProxy.Lmrh.Tenants
import LlmProxy.Providers.Tombstones
import LlmProxy.Streaming.Agreement
import LlmProxy.OAuth.Refresh
import LlmProxy.OAuth.Rotation
import LlmProxy.OAuth.Accounts
import LlmProxy.OAuth.RoundRobin
import LlmProxy.Dispatch.Calls
import LlmProxy.Dispatch.Fallback
import LlmProxy.Dispatch.Refusal
import LlmProxy.Dispatch.NonStreaming
import LlmProxy.Dispatch.Coherence
import LlmProxy.Dispatch.Handlers
import LlmProxy.Dispatch.Secondary
import LlmProxy.Routing.Soundness
import LlmProxy.Routing.Substitution
import LlmProxy.Routing.Offers
import LlmProxy.Dispatch.Outcomes
import LlmProxy.Dispatch.Usage
import LlmProxy.Dispatch.Primary
import LlmProxy.Dispatch.ToolWalk
import LlmProxy.Breaker.State
import LlmProxy.Breaker.Invariant
import LlmProxy.Breaker.HoldDown
import LlmProxy.Breaker.Errors
import LlmProxy.Breaker.AutoSkip
import LlmProxy.Runs.Failover
import LlmProxy.Dispatch.Hops
import LlmProxy.Dispatch.ProxyTools
import LlmProxy.Auth.AllowedPaths
import LlmProxy.Auth.Admission
import LlmProxy.Auth.LoginRuns
import LlmProxy.Auth.Sessions
import LlmProxy.Cluster.KeyEdits
import LlmProxy.Cluster.Edits
import LlmProxy.Cluster.Quorum
import LlmProxy.Cluster.Restores
import LlmProxy.Settings.Agreement
import LlmProxy.Budget.Spend
import LlmProxy.Memory.Freshness
import LlmProxy.Memory.Provenance
import LlmProxy.Runs.Merge
import LlmProxy.Cluster.Convergence
import LlmProxy.Cluster.PriorityOrder
import LlmProxy.Cluster.Backwards
import LlmProxy.Cache.Decision
import LlmProxy.Cache.Identity
import LlmProxy.Dispatch.Retry
import LlmProxy.Cache.Stores
import LlmProxy.Cache.OwnAnswers
import LlmProxy.Compliance.Algebra
import LlmProxy.Compliance.Blocklist
import LlmProxy.Users.LiveAdmin
import LlmProxy.Monitoring.MetricRuns
import LlmProxy.Supervisor.Respect
import LlmProxy.Integration.SelfUpdate
import LlmProxy.Monitoring.Bodies
import LlmProxy.Cluster.DedupRuns
import LlmProxy.Sdk.HintMeaning
import LlmProxy.Routing.HardConstraints
import LlmProxy.Routing.HintRoundTrip
import LlmProxy.Routing.ToolWeight
import LlmProxy.Dispatch.RetryRuns
import LlmProxy.Dispatch.RankedRuns
import LlmProxy.Dispatch.OauthChain
import LlmProxy.Streaming.HedgeRace
import LlmProxy.Streaming.HedgeTokens
import LlmProxy.Dispatch.EmptyGuard
import LlmProxy.Dispatch.CascadeRuns
import LlmProxy.Streaming.OpenAiStream
import LlmProxy.Streaming.CodexStream
import LlmProxy.Memory.FileRuns
import LlmProxy.Dispatch.CacheMarkers
import LlmProxy.Dispatch.InboundResults
import LlmProxy.Lib.JsonSpaced
import LlmProxy.Lib.JsonQuotes
import LlmProxy.Lib.Delimited
import LlmProxy.Cot.ToolCalls
import LlmProxy.Cot.ToolEmulation
import LlmProxy.Cot.Thinking
import LlmProxy.Lib.Separated
import LlmProxy.Routing.Utilization
import LlmProxy.Cluster.PrioritySlots
import LlmProxy.Dispatch.ContextWindow
import LlmProxy.Airi.Oscillation
import LlmProxy.Monitoring.Suggestions
import LlmProxy.Lib.Masking
import LlmProxy.Privacy.Pii
import LlmProxy.Privacy.Messages

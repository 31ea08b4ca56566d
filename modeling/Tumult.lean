import Tumult.Lib.Json
import Tumult.Lib.HashChain
import Tumult.Lib.Db
import Tumult.Lib.Tables
import Tumult.Lib.Interleave
import Tumult.Lib.Words
import Tumult.Lib.Traced
import Tumult.Lib.Brackets
import Tumult.Lib.OrdMap
import Tumult.Core.Types
import Tumult.Lake.Audit
import Tumult.Lake.Store
import Tumult.Lake.Schema
import Tumult.Lake.Analytics
import Tumult.Lake.Runs
import Tumult.Lake.Approvals
import Tumult.Daemon.State
import Tumult.Daemon.Step
import Tumult.Daemon.Moves
import Tumult.Daemon.Gate
import Tumult.Runner.Activity
import Tumult.Runner.Experiment
import Tumult.Runner.FaultGate
import Tumult.Runner.Footprint
import Tumult.Runner.Live
import Tumult.Runner.Records
import Tumult.Runner.Steps
import Tumult.Core.Template
import Tumult.Autopilot.Gate
import Tumult.Autopilot.Engine
import Tumult.Autopilot.Contracts
import Tumult.Ingest.Webhooks
import Tumult.Query.Cypher
import Tumult.Query.Expansion
import Tumult.Graph.Model
import Tumult.Graph.Map
import Tumult.Graph.Lineage
import Tumult.Graph.Index
import Tumult.Theorems.AuditChain
import Tumult.Theorems.Ownership
import Tumult.Theorems.Absorbing
import Tumult.Theorems.Stop
import Tumult.Theorems.TwoPerson
import Tumult.Theorems.MutationGuard
import Tumult.Theorems.Lifecycle
import Tumult.Theorems.Cleanup
import Tumult.Theorems.Containment
import Tumult.Theorems.Placeholders
import Tumult.Theorems.Template
import Tumult.Theorems.Attribution
import Tumult.Theorems.Lineage
import Tumult.Theorems.Respond
import Tumult.Theorems.Budget
import Tumult.Theorems.Delta
import Tumult.Theorems.Webhooks
import Tumult.Theorems.Migration
import Tumult.Theorems.Analytics
import Tumult.Lake.Auth
import Tumult.Core.Text
import Tumult.Api.Auth
import Tumult.Api.AuthTasks
import Tumult.Theorems.AuthAtomic
import Tumult.Theorems.Credentials
import Tumult.Lib.TokenBucket
import Tumult.Theorems.Throttle
import Tumult.Ingest.Writer
import Tumult.Theorems.GuardMonitor
import Tumult.Theorems.IngestBatches
import Tumult.Lake.Snapshots
import Tumult.Theorems.Scheduling
import Tumult.Theorems.Snapshots
import Tumult.Theorems.Validation
import Tumult.Runner.GameDay
import Tumult.Theorems.FaultGate
import Tumult.Theorems.GameDay
import Tumult.Mcp.Enact
import Tumult.Theorems.Enact
import Tumult.Mcp.Validation
import Tumult.Query.Sql
import Tumult.Theorems.GateLaw
import Tumult.Theorems.ClassKey
import Tumult.Theorems.Environment
import Tumult.Theorems.Expansion
import Tumult.Lib.Keyed
import Tumult.Lake.Refresh
import Tumult.Lib.Merge
import Tumult.Lake.Legacy
import Tumult.Theorems.Refresh
import Tumult.Theorems.Legacy
import Tumult.Theorems.SelectOnly
import Tumult.Lib.Wildcard
import Tumult.Lib.Rooted
import Tumult.Compliance.Dates
import Tumult.Compliance.Org
import Tumult.Theorems.Glob
import Tumult.Theorems.GraphDeltas
import Tumult.Theorems.Org
import Tumult.Graph.Service
import Tumult.Theorems.Service
import Tumult.Lib.Spans
import Tumult.Query.SqlGuard
import Tumult.Theorems.Tokenizers
import Tumult.Lib.Grouping
import Tumult.Runner.Phases
import Tumult.Theorems.PostRecovery
import Tumult.Lib.Bfs
import Tumult.Graph.Recommend
import Tumult.Theorems.Recommend
import Tumult.Agentic.Faults
import Tumult.Agentic.Trajectory
import Tumult.Theorems.Trajectory
import Tumult.Lib.Checks
import Tumult.Lib.SqlLex
import Tumult.Query.Metrics
import Tumult.Query.Neighbors
import Tumult.Theorems.MetricSql
import Tumult.Net.Config
import Tumult.Theorems.ProxyDelay
import Tumult.Net.Address
import Tumult.Ingest.WebhookPolicy
import Tumult.Ingest.Schedules
import Tumult.Api.SqlUtil
import Tumult.Ingest.Completion
import Tumult.Theorems.UrlPolicy
import Tumult.Lib.Base64
import Tumult.Mcp.Cursor
import Tumult.Mcp.Resources
import Tumult.Theorems.Neighbors
import Tumult.Theorems.Paging
import Tumult.Lib.Mermaid
import Tumult.Lib.Like
import Tumult.Lib.SqlCond
import Tumult.Graph.Render
import Tumult.Theorems.TopologyMap
import Tumult.Exec.Arguments
import Tumult.Exec.Scaffold
import Tumult.Otlp.Common
import Tumult.Otlp.Convert
import Tumult.Theorems.Otlp
import Tumult.Lib.Replace
import Tumult.Lib.HtmlTokens
import Tumult.Compliance.Report
import Tumult.Compliance.Svg
import Tumult.Compliance.Html
import Tumult.Theorems.ReportMarkup
import Tumult.Theorems.ReportItems
import Tumult.Theorems.ReportHtml
import Tumult.Theorems.Scaffold
import Tumult.Theorems.ScriptArguments
import Tumult.Theorems.CivilDates
import Tumult.Theorems.Completion
import Tumult.Theorems.Schedules
import Tumult.Theorems.Quoting
import Tumult.Ssh.KnownHosts
import Tumult.Theorems.KnownHosts
import Tumult.Ssh.Session
import Tumult.Theorems.RemoteCommands
import Tumult.Ssh.Pool
import Tumult.Theorems.SshPool
import Tumult.Lake.Ulid
import Tumult.Theorems.Ulid
import Tumult.Lake.Manual
import Tumult.Ingest.ExecutionPolicy
import Tumult.Theorems.ExecutionPolicy
import Tumult.Theorems.ManualEffects
import Tumult.Theorems.Manual
